import RaceSkeletons.Corpus.Discover
import RaceSkeletons.Proofs.Corpus.CommentLines
import RaceSkeletons.Proofs.Corpus.Idempotence

/-!
# Two tests for a package header

Normalization tests the first line of a fragment for the keyword, the figures
test every line for the keyword and a space. So they can differ on a text in two
ways: a package is declared behind a first line that does not begin with the
keyword, or the first line does, and no line declares a package. Of a text that
does neither both say the same (`hasHeader_iff_hasPackage`).

Comments are stripped between the two tests, so the figures tell of a package
unless the text has a header and no line declares a package once its comments are
gone (`hasPackage_normalText_iff`). A first line still declares its package then
if it names one (`NamesPackage`): what names it begins with no comment. What
normalization makes of a text reaches the file through every path
that leads there (`FileSystem.HoldsText.normalizeEach`).

To the first test stripping makes no difference at all (`hasHeader_stripComments_iff`): a
comment begins behind the keyword or hides nothing of it. So the two passes over a text can
change places, and what they make of it both of them leave alone
(`header_survives_stripping`).
-/

namespace RaceSkeletons

variable {text : String}

/-! ## Lines that declare a package -/

/-- Whether the first line declares a package. -/
def declaresFirst (text : String) : Bool :=
  (Text.lines text.toList).head?.any declaresPackage

/-- Whether a later line declares a package. -/
def declaresLater (text : String) : Bool :=
  (Text.lines text.toList).tail.any declaresPackage

theorem hasPackage_eq (size : Nat) (text : String) :
    (FragmentStats.ofContent size text).hasPackage =
      (declaresFirst text || declaresLater text) := by
  rw [FragmentStats.ofContent, declaresFirst, declaresLater]
  cases Text.lines text.toList <;> rfl

/-- The keyword with a space begins with the keyword. -/
theorem hasHeader_of_declaresFirst (h : declaresFirst text = true) : hasHeader text = true := by
  rw [declaresFirst] at h
  rw [hasHeader]
  cases hlines : Text.lines text.toList with
  | nil =>
      rw [hlines] at h
      cases h
  | cons line more =>
      rw [hlines] at h
      exact List.isPrefixOf_iff_prefix.mpr
        ((List.prefix_append _ _).trans (List.isPrefixOf_iff_prefix.mp h))

/-- The end of the first line does not matter to what it declares. -/
theorem declaresFirst_eq (text : String) :
    declaresFirst text = declaresPackage (text.toList.takeWhile (· != '\n')) := by
  rw [declaresFirst]
  rcases Text.lines_cases text.toList with ⟨hnil, hempty⟩ | ⟨line, more, hcons, rfl | rfl⟩
  · rw [hnil, hempty]
    rfl
  · rw [hcons]
    rfl
  · rw [hcons, List.head?_cons, Option.any_some, declaresPackage, Text.trim_dropReturn]
    rfl

/-- The two tests agree on a text unless its header declares no package and no other line
does, or it has no header and a later line declares one. -/
theorem hasHeader_iff_hasPackage (size : Nat) (text : String) :
    (hasHeader text = true ↔ (FragmentStats.ofContent size text).hasPackage = true) ↔
      (hasHeader text = true → declaresFirst text = true ∨ declaresLater text = true) ∧
        (declaresLater text = true → hasHeader text = true) := by
  have hfirst : declaresFirst text = true → hasHeader text = true := hasHeader_of_declaresFirst
  rw [hasPackage_eq, Bool.or_eq_true]
  tauto

/-! ## Headers of stripped texts -/

/-- Stripping takes no header away, and none comes from behind a comment. -/
theorem hasHeader_stripComments_iff :
    hasHeader (stripComments text) = true ↔ hasHeader text = true := by
  refine ⟨fun h => ?_, hasHeader_stripComments⟩
  rw [hasHeader_iff_startsWithKeyword] at h ⊢
  rw [takeWhile_stripComments] at h
  obtain ⟨blanks, rest, hbefore, hblanks⟩ := h
  rcases isCutAtComment_beforeComment (text.toList.takeWhile (· != '\n')) with
    ⟨hwhole, -⟩ | ⟨comment, hcut, -⟩
  · exact ⟨blanks, rest, hwhole.symm.trans hbefore, hblanks⟩
  · refine ⟨blanks, rest ++ lineComment ++ comment, ?_, hblanks⟩
    rw [hcut, hbefore]
    simp only [List.append_assoc]

/-! ## Names of packages -/

/-- The first line names a package: behind the keyword and a space there is
something that is no white space and begins no comment. -/
def NamesPackage (text : String) : Prop :=
  ∃ blanks gap c rest, text.toList = blanks ++ headerKeyword.toList ++ ' ' :: gap ++ c :: rest ∧
    (∀ b ∈ blanks ++ gap, Text.isBlank b = true ∧ b ≠ '\n') ∧ Text.isBlank c = false ∧
      (c = '/' → rest.head? ≠ some '/')

/-- A name survives that the comments are stripped. -/
theorem NamesPackage.declaresFirst_stripComments (h : NamesPackage text) :
    declaresFirst (stripComments text) = true := by
  obtain ⟨blanks, gap, c, rest, htext, hblanks, hc, hcomment⟩ := h
  have hbefore : ∀ b ∈ blanks ++ headerKeyword.toList ++ ' ' :: gap, b ≠ '/' ∧ b ≠ '\n' := by
    intro b hb
    refine ne_of_header ?_
    rcases List.mem_append.mp hb with hb | hb
    · exact (List.mem_append.mp hb).imp_left fun hb => hblanks b (List.mem_append_left _ hb)
    · rcases List.mem_cons.mp hb with rfl | hb
      · exact .inl (by decide)
      · exact .inl (hblanks b (List.mem_append_right _ hb))
  have hname : c ≠ '\n' := by
    rintro rfl
    rw [Text.isBlank_newline] at hc
    cases hc
  have hline : (stripComments text).toList.takeWhile (· != '\n') =
      blanks ++ headerKeyword.toList ++ ' ' :: gap ++
        c :: (stripFrom false rest).takeWhile (· != '\n') := by
    rw [stripComments, String.toList_ofList, htext,
      stripFrom_append fun hmem => (hbefore _ hmem).1 rfl, stripFrom_cons hcomment,
      List.takeWhile_append_of_pos fun b hb => bne_iff_ne.mpr (hbefore b hb).2,
      List.takeWhile_cons, if_pos (bne_iff_ne.mpr hname)]
  have hkeyword : headerKeyword.toList = 'p' :: "ackage".toList := by decide
  have hword : 'p' :: ("ackage".toList ++ ' ' :: gap) ++ [c] <+:
      Text.trim (blanks ++ headerKeyword.toList ++ ' ' :: gap ++
        c :: (stripFrom false rest).takeWhile (· != '\n')) := by
    refine (Text.prefix_trim_iff _ _ _ _ (by decide) hc).mpr
      ⟨blanks, (stripFrom false rest).takeWhile (· != '\n'), ?_,
        fun b hb => (hblanks b (List.mem_append_left _ hb)).1⟩
    simp only [hkeyword, List.append_assoc, List.cons_append, List.nil_append]
  rw [declaresFirst_eq, hline, declaresPackage, List.isPrefixOf_iff_prefix]
  refine List.IsPrefix.trans ⟨gap ++ [c], ?_⟩ hword
  simp only [hkeyword, List.append_assoc, List.cons_append, List.nil_append]

/-! ## Normal texts -/

theorem normalText_of_header (h : hasHeader text = true) :
    normalText text = stripComments text := by
  rw [normalText, insertHeader, if_pos h]

theorem normalText_of_noHeader (h : hasHeader text = false) :
    normalText text = defaultHeader ++ stripComments text := by
  have hslash : '/' ∉ defaultHeader.toList := by decide
  rw [normalText, insertHeader, h, if_neg Bool.false_ne_true, stripComments, String.toList_append,
    stripFrom_append hslash, String.ofList_append, String.ofList_toList, stripComments]

/-- Header and comments are seen to in either order. -/
theorem stripComments_insertHeader (text : String) :
    stripComments (insertHeader text) = insertHeader (stripComments text) := by
  cases hheader : hasHeader text with
  | true =>
      rw [insertHeader, insertHeader, if_pos hheader, if_pos (hasHeader_stripComments hheader)]
  | false =>
      have hstripped : ¬ hasHeader (stripComments text) = true := by
        rw [hasHeader_stripComments_iff, hheader]
        exact Bool.false_ne_true
      have hnormal := normalText_of_noHeader hheader
      rw [normalText] at hnormal
      rw [hnormal, insertHeader, if_neg hstripped]

/-- The header that is given to a text names a package. -/
theorem namesPackage_insertHeader (h : hasHeader text = true → NamesPackage text) :
    NamesPackage (insertHeader text) := by
  rw [insertHeader]
  split
  · next hheader => exact h hheader
  · refine ⟨[], [], 'm', "ain\n\n".toList ++ text.toList, ?_, List.forall_mem_nil _, by decide,
      fun heq => absurd heq (by decide)⟩
    rw [String.toList_append]
    rfl

theorem declaresFirst_normalText (h : hasHeader text = true → NamesPackage text) :
    declaresFirst (normalText text) = true :=
  (namesPackage_insertHeader h).declaresFirst_stripComments

/-- A normal text declares a package, unless it had a header and the lines that are left of it
declare none. -/
theorem hasPackage_normalText_iff (size : Nat) (text : String) :
    (FragmentStats.ofContent size (normalText text)).hasPackage = true ↔
      (hasHeader text = true → declaresFirst (stripComments text) = true ∨
        declaresLater (stripComments text) = true) := by
  rw [hasPackage_eq, Bool.or_eq_true]
  cases hheader : hasHeader text with
  | true => simp only [normalText_of_header hheader, forall_const]
  | false =>
      refine iff_of_true (.inl (declaresFirst_normalText fun hhas => ?_)) nofun
      rw [hheader] at hhas
      cases hhas

namespace FileSystem

variable {fs : FileSystem} {location : Location} {node : Node} {p : Path} {files : List Path}

/-! ## One header -/

theorem ensureHeader_eq_iff (h : fs.readText p = .ok text) :
    ensureHeader fs p = (fs, .ok false) ↔ hasHeader text = true := by
  refine ⟨fun hsame => ?_, fun hheader => ?_⟩
  · obtain ⟨text', hread, -, hchanged⟩ := (hsame ▸ rewrites_ensureHeader fs p).readText
    obtain rfl := Except.ok.inj (h.symm.trans hread)
    exact insertHeader_eq_iff.mp (not_not.mp (mt hchanged.mpr Bool.false_ne_true))
  · simp only [ensureHeader, h, hheader, if_true]

/-- A text without a header is given one, or its file cannot be written. -/
theorem ensureHeader_of_noHeader (h : fs.readText p = .ok text) (hnone : hasHeader text = false) :
    (ensureHeader fs p).2 = .ok true ∧
        (ensureHeader fs p).1.readText p = .ok (defaultHeader ++ text) ∨
      (∃ e, (ensureHeader fs p).2 = .error e) ∧
        ¬ (fs.IsRewritable p ∧ fs.fault? = none) := by
  have hrewrites := rewrites_ensureHeader fs p
  cases hresult : (ensureHeader fs p).2 with
  | ok changed =>
      obtain ⟨text', hread, hafter, hchanged⟩ := (hresult ▸ hrewrites).readText
      obtain rfl := Except.ok.inj (h.symm.trans hread)
      rw [Ne, insertHeader_eq_iff, hnone] at hchanged
      rw [insertHeader, hnone, if_neg Bool.false_ne_true] at hafter
      exact .inl ⟨congrArg _ (hchanged.mpr Bool.false_ne_true), hafter⟩
  | error e =>
      refine .inr ⟨⟨e, rfl⟩, fun hable => ?_⟩
      obtain ⟨changed, hok⟩ := hrewrites.isOk h hable.1 hable.2
      rw [hresult] at hok
      cases hok

/-! ## Texts after the pass -/

/-- A file with this text stands at the location. -/
def HoldsText (fs : FileSystem) (location : Location) (text : String) : Prop :=
  ∃ bytes mode, fs.nodeAt? location = some (.file bytes mode) ∧
    Utf8.decode? bytes = some text

theorem readText_eq_ok_iff_holdsText (htarget : fs.target? p = .ok (location, node)) :
    fs.readText p = .ok text ↔ fs.HoldsText location text := by
  rw [readText_eq_ok_iff]
  constructor
  · rintro ⟨_, bytes, mode, hfile, hdecode⟩
    obtain ⟨rfl, -⟩ := Prod.mk.inj (Except.ok.inj (htarget.symm.trans hfile))
    exact ⟨bytes, mode, nodeAt?_of_target? hfile, hdecode⟩
  · rintro ⟨bytes, mode, hnode, hdecode⟩
    rw [nodeAt?_of_target? htarget] at hnode
    obtain rfl := Option.some.inj hnode
    exact ⟨location, bytes, mode, htarget, hdecode⟩

/-- Normalizing a fragment makes a text normal, if no rewriting of the fragment fails, or
leaves it if the fragment is another file. -/
theorem HoldsText.normalizeFragment {host : Host} {checker : SyntaxChecker}
    (h : fs.HoldsText location text)
    (hdone : ∀ node, fs.target? p = .ok (location, node) →
      (normalizeFragment host checker fs p).2.IsRewritten) :
    (normalizeFragment host checker fs p).1.HoldsText location (normalText text) ∨
      (normalizeFragment host checker fs p).1.HoldsText location text ∧
        ∀ node, fs.target? p ≠ .ok (location, node) := by
  by_cases hleads : ∃ node, fs.target? p = .ok (location, node)
  · obtain ⟨node, htarget⟩ := hleads
    obtain ⟨text', hread, hafter⟩ := readText_normalizeFragment (hdone node htarget)
    obtain ⟨bytes, mode, hnode, hdecode⟩ := (readText_eq_ok_iff_holdsText htarget).mp hread
    obtain ⟨bytes', mode', hnode', hdecode'⟩ := h
    obtain ⟨rfl, rfl⟩ := Node.file.inj (Option.some.inj (hnode.symm.trans hnode'))
    obtain rfl := Option.some.inj (hdecode.symm.trans hdecode')
    obtain ⟨node', -, htarget'⟩ :=
      (isRewrite_normalizeFragment host checker fs p).grows.target? htarget
    exact .inl ((readText_eq_ok_iff_holdsText htarget').mp hafter)
  · refine .inr ⟨?_, fun node htarget => hleads ⟨node, htarget⟩⟩
    rcases normalizeFragment_cases host checker fs p with
      hsame | ⟨other, bytes, content, mode, htarget, hwrite⟩
    · rw [hsame]
      exact h
    · have hother : location ≠ other := by
        rintro rfl
        exact hleads ⟨_, htarget⟩
      rw [HoldsText, hwrite.nodeAt?_of_ne hother]
      exact h

/-- Normalizing fragments makes a text normal, if one of them is its file and no rewriting of
that file fails, and only once, however many are. -/
theorem HoldsText.normalizeEach {host : Host} {checker : SyntaxChecker}
    (h : fs.HoldsText location text)
    (hdone : ∀ report ∈ (normalizeEach host checker fs files).2, ∀ node,
      fs.target? report.path = .ok (location, node) → report.IsRewritten) :
    (normalizeEach host checker fs files).1.HoldsText location (normalText text) ∨
      (normalizeEach host checker fs files).1.HoldsText location text ∧
        ∀ p ∈ files, ∀ node, fs.target? p ≠ .ok (location, node) := by
  induction files generalizing fs text with
  | nil => exact .inr ⟨h, nofun⟩
  | cons p rest ih =>
      have hrewrite := isRewrite_normalizeFragment host checker fs p
      rw [RaceSkeletons.normalizeEach] at hdone ⊢
      -- the paths lead where they did before the first fragment was normalized
      have hrest : ∀ report ∈ (RaceSkeletons.normalizeEach host checker
          (RaceSkeletons.normalizeFragment host checker fs p).1 rest).2, ∀ node,
          (RaceSkeletons.normalizeFragment host checker fs p).1.target? report.path =
            .ok (location, node) → report.IsRewritten := by
        intro report hreport node htarget
        obtain ⟨node', -, hbefore⟩ := hrewrite.symm.grows.target? htarget
        exact hdone report (List.mem_cons_of_mem _ hreport) node' hbefore
      rcases h.normalizeFragment fun node htarget =>
        hdone _ List.mem_cons_self node htarget with hnormal | ⟨hsame, hfirst⟩
      · have hagain := ih hnormal hrest
        rw [(isClean_normalText text).normalText_eq] at hagain
        exact .inl (hagain.elim id And.left)
      · refine (ih hsame hrest).imp_right fun hlast => ⟨hlast.1, fun q hq node htarget => ?_⟩
        rcases List.mem_cons.mp hq with rfl | hq
        · exact hfirst node htarget
        · obtain ⟨node', -, hlater⟩ := hrewrite.grows.target? htarget
          exact hlast.2 q hq node' hlater

/-- A text that can be rewritten is one still after another was, where no write fails halfway. -/
theorem isRewritable_normalizeFragment {q : Path} (hfaults : fs.faults = []) (host : Host)
    (checker : SyntaxChecker) (p : Path) (hread : fs.readText q = .ok text)
    (hq : fs.IsRewritable q) :
    (∃ text, (normalizeFragment host checker fs p).1.readText q = .ok text) ∧
      (normalizeFragment host checker fs p).1.IsRewritable q := by
  obtain ⟨location, bytes, mode, htarget, hopens⟩ := hq
  have hgrows := (isRewrite_normalizeFragment host checker fs p).grows
  obtain ⟨node, hnode, hlater⟩ := hgrows.target? htarget
  have hholds := (readText_eq_ok_iff_holdsText htarget).mp hread
  have hdone : ∀ node, fs.target? p = .ok (location, node) →
      (normalizeFragment host checker fs p).2.IsRewritten := by
    intro node hleads
    obtain rfl : node = .file bytes mode := Option.some.inj
      ((nodeAt?_of_target? hleads).symm.trans (nodeAt?_of_target? htarget))
    exact isRewritten_normalizeFragment host checker
      ((readText_eq_ok_iff_holdsText hleads).mpr hholds) ⟨_, _, _, hleads, hopens⟩ hfaults
  constructor
  · rcases hholds.normalizeFragment hdone with hafter | ⟨hafter, -⟩
    all_goals exact ⟨_, (readText_eq_ok_iff_holdsText hlater).mpr hafter⟩
  · rcases hnode with rfl | ⟨_, bytes', _, heq, rfl⟩
    · exact ⟨_, _, _, hlater, hopens⟩
    · cases heq
      exact ⟨_, bytes', _, hlater, hopens⟩

/-- Where no write fails halfway, no rewriting of a text fails whose file can be written. -/
theorem isRewritten_of_mem {host : Host} {checker : SyntaxChecker} {report : FragmentReport}
    (hfaults : fs.faults = []) (hreport : report ∈ (normalizeEach host checker fs files).2)
    (hread : fs.readText report.path = .ok text) (hp : fs.IsRewritable report.path) :
    report.IsRewritten := by
  induction files generalizing fs text with
  | nil => cases hreport
  | cons p rest ih =>
      rw [normalizeEach] at hreport
      rcases List.mem_cons.mp hreport with rfl | hlater
      · exact isRewritten_normalizeFragment host checker hread hp hfaults
      · obtain ⟨⟨_, hread'⟩, hp'⟩ :=
          isRewritable_normalizeFragment hfaults host checker p hread hp
        exact ih (List.suffix_nil.mp (hfaults ▸ faults_normalizeFragment host checker fs p))
          hlater hread' hp'

/-- A text is what the fragment that is loaded from its file contains. -/
theorem load_of_readText (h : fs.readText p = .ok text) :
    (Fragment.load fs p).content = text ∧
      ∃ size, (Fragment.load fs p).stats = .ofContent size text := by
  obtain ⟨location, bytes, mode, htarget, hdecode⟩ := readText_eq_ok_iff.mp h
  have hread : fs.readBytes p = .ok bytes := by rw [readBytes, htarget]
  simp only [Fragment.load, hread, Utf8.decodeLossy_of_decode? hdecode]
  exact ⟨trivial, bytes.length, rfl⟩

end FileSystem

/-! ## Both passes -/

/-- **A header survives that the comments are stripped.** The first line of a text starts with the
keyword before its comments are stripped exactly if it does afterwards, so header and comments can
be seen to in either order. What comes out has no comment marker and has a header, and neither
pass changes it again, in the text or, if both could write it, in the file that holds it. -/
theorem header_survives_stripping (text : String) :
    (hasHeader (stripComments text) = true ↔ hasHeader text = true) ∧
      stripComments (insertHeader text) = insertHeader (stripComments text) ∧
      (let normal := stripComments (insertHeader text)
       ¬ lineComment <:+: normal.toList ∧ hasHeader normal = true ∧
        insertHeader normal = normal ∧ stripComments normal = normal) ∧
      ∀ host checker (fs : FileSystem) p, fs.readText p = .ok text →
        (normalizeFragment host checker fs p).2.IsRewritten →
          let after := (normalizeFragment host checker fs p).1
          after.readText p = .ok (stripComments (insertHeader text)) ∧
            ensureHeader after p = (after, .ok false) ∧ stripFile after p = (after, .ok false) := by
  have hclean : IsClean (normalText text) := isClean_normalText text
  refine ⟨hasHeader_stripComments_iff, stripComments_insertHeader text,
    ⟨?_, hclean.header, if_pos hclean.header, hclean.stripped⟩,
    fun host checker fs p htext hdone => ?_⟩
  · rw [stripComments, String.toList_ofList]
    exact not_infix_stripFrom false _
  · obtain ⟨text', hread, hnormal⟩ := readText_normalizeFragment hdone
    obtain rfl := Except.ok.inj (htext.symm.trans hread)
    refine ⟨hnormal, (FileSystem.ensureHeader_eq_iff hnormal).mpr hclean.header, ?_⟩
    simp only [stripFile, hnormal, hclean.stripped, if_true]

/-- Behind the keyword a comment hides the end of the first line, and one more ends the text. -/
theorem header_survives_stripping_sample :
    let fs : FileSystem :=
      { entries := [⟨["f"], .file (Utf8.encode "\tpackage// a\r\nx ///") .plain⟩], workingDir := [] }
    let after :=
      (normalizeFragment (fun _ _ => .timedOut) { program := ⟨"gofmt"⟩ } fs ⟨"f"⟩).1
    fs.readText ⟨"f"⟩ = .ok "\tpackage// a\r\nx ///" ∧
      after.readText ⟨"f"⟩ = .ok "\tpackage\nx " ∧
      ensureHeader after ⟨"f"⟩ = (after, .ok false) ∧
      stripFile after ⟨"f"⟩ = (after, .ok false) := by
  intro fs after
  have htarget : fs.target? ⟨"f"⟩ =
      .ok (["f"], .file (Utf8.encode "\tpackage// a\r\nx ///") .plain) :=
    FileSystem.target?_of_goesDown (by decide)
  have htext : fs.readText ⟨"f"⟩ = .ok "\tpackage// a\r\nx ///" :=
    FileSystem.readText_eq_ok_iff.mpr ⟨_, _, _, htarget, Utf8.decode?_encode _⟩
  obtain ⟨-, -, -, hpasses⟩ := header_survives_stripping "\tpackage// a\r\nx ///"
  obtain ⟨hread, hheader, hstrip⟩ :=
    hpasses (fun _ _ => .timedOut) { program := ⟨"gofmt"⟩ } fs ⟨"f"⟩ htext
      (isRewritten_normalizeFragment _ _ htext ⟨_, _, _, htarget, rfl⟩ rfl)
  have hnormal : stripComments (insertHeader "\tpackage// a\r\nx ///") = "\tpackage\nx " := by
    decide
  exact ⟨htext, hnormal ▸ hread, hheader, hstrip⟩

end RaceSkeletons
