import RaceSkeletons.Proofs.CommandLine.Acceptance

/-!
# A verification with its options in another order

Arguments that are accepted for a verification are groups around the subcommand (`VerifyInvocation`,
`VerifyInvocation.exists_of_parse`): every option that is accepted has its value, so the scans on both
sides of the subcommand are complete. What the groups behind it give is accepted in any order that
keeps the one of the analyzer's arguments (`VerifyInvocation.options_in_another_order`).
-/

namespace RaceSkeletons

/-! ## Groups that give an argument to the analyzer -/

/-- The two spellings of an argument for the analyzer. -/
def argumentSpellings (value : String) : List (List String) :=
  [["--analyzer-arg", value], ["--analyzer-arg=" ++ value]]

theorem argument_equals (value : List Char) :
    "--analyzer-arg" ++ String.ofList ('=' :: value) = "--analyzer-arg=" ++ String.ofList value := by
  rw [String.ofList_cons, ← String.append_assoc]
  rfl

namespace CommandLevel

variable {level : CommandLevel} {words : List String} {uses uses' : List OptionUse}
  {o : OptionSpec} {cs name : List Char}

/-- What a group gives can be read off its words. -/
theorem IsGroup.uses_unique (h : level.IsGroup words uses) (h' : level.IsGroup words uses') :
    uses = uses' := by
  have hscan : (level.scan none none []).behind uses = (level.scan none none []).behind uses' :=
    (scan_group h []).symm.trans (scan_group h' [])
  exact List.append_cancel_right (congrArg Scan.uses hscan)

/-- The option for an argument of the analyzer has a value and no letter. -/
theorem isArgument_spec (ho : o ∈ level.options) (hid : o.id = .analyzerArg) :
    o.long = "analyzer-arg" ∧ o.short = none ∧ o.takesValue = true := by
  revert o
  cases level <;> decide

theorem IsFlag.not_isArgument (h : level.IsFlag o) : o.id ≠ .analyzerArg :=
  fun hid => Bool.false_ne_true (h.noValue.symm.trans (isArgument_spec h.mem hid).2.2)

theorem AreFlags.not_isArgument (h : level.AreFlags cs uses) :
    ∀ u ∈ uses, u.id ≠ .analyzerArg := by
  induction h with
  | nil => exact nofun
  | cons ho hc hrest ih => exact List.forall_mem_cons.mpr ⟨ho.not_isArgument, ih⟩

theorem IsNamed.not_isArgument (h : level.IsNamed name uses o) :
    ∀ u ∈ uses, u.id ≠ .analyzerArg := by
  cases h with
  | long ho => exact nofun
  | short hflags ho hc => exact hflags.not_isArgument

theorem IsNamed.eq_of_isArgument (h : level.IsNamed name uses o) (hid : o.id = .analyzerArg) :
    String.ofList name = "--analyzer-arg" ∧ uses = [] := by
  cases h with
  | long ho =>
      rw [(isArgument_spec ho hid).1]
      exact ⟨rfl, rfl⟩
  | short hflags ho hc => exact nomatch (isArgument_spec ho hid).2.1.symm.trans hc

/-- A group gives one argument to the analyzer, or none. -/
theorem IsGroup.argument_cases (h : level.IsGroup words uses) :
    (∀ u ∈ uses, u.id ≠ .analyzerArg) ∨
      ∃ value isOpen, words ∈ argumentSpellings value ∧
        uses = [{ id := .analyzerArg, value := some value, isOpen }] := by
  have hlast {before : List OptionUse} {u : OptionUse}
      (hbefore : ∀ v ∈ before, v.id ≠ .analyzerArg) (hu : u.id ≠ .analyzerArg) :
      ∀ v ∈ before ++ [u], v.id ≠ .analyzerArg :=
    List.forall_mem_append.mpr ⟨hbefore, List.forall_mem_singleton.mpr hu⟩
  cases h with
  | flag ho => exact .inl (List.forall_mem_singleton.mpr ho.not_isArgument)
  | letters hflags hne => exact .inl hflags.not_isArgument
  | @equals o name before hname ho value =>
      by_cases hid : o.id = .analyzerArg
      · obtain ⟨hspelling, rfl⟩ := hname.eq_of_isArgument hid
        refine .inr ⟨String.ofList value, false, ?_, by rw [hid]; rfl⟩
        rw [String.ofList_append, hspelling, argument_equals]
        exact List.mem_cons_of_mem _ List.mem_cons_self
      · exact .inl (hlast hname.not_isArgument hid)
  | attached hflags hmem hc ho hvalue hequals =>
      refine .inl (hlast hflags.not_isArgument fun hid => ?_)
      exact nomatch (isArgument_spec hmem hid).2.1.symm.trans hc
  | @apart o name before value hname ho hvalue =>
      by_cases hid : o.id = .analyzerArg
      · obtain ⟨hspelling, rfl⟩ := hname.eq_of_isArgument hid
        refine .inr ⟨value, true, ?_, by rw [hid]; rfl⟩
        rw [hspelling]
        exact List.mem_cons_self
      · exact .inl (hlast hname.not_isArgument hid)

/-- Any value can be given to the analyzer, whatever it looks like. -/
theorem isGroup_argumentSpellings {value : String} (h : words ∈ argumentSpellings value) :
    ∃ isOpen, IsGroup .verify words [{ id := .analyzerArg, value := some value, isOpen }] := by
  have ho : { id := .analyzerArg, long := "analyzer-arg", value := .any } ∈
      CommandLevel.verify.options := by decide
  have hname : String.ofList ('-' :: '-' :: "analyzer-arg".toList) = "--analyzer-arg" := rfl
  simp only [argumentSpellings, List.mem_cons, List.not_mem_nil, or_false] at h
  rcases h with rfl | rfl
  · exact ⟨true, .apart (.long ho) rfl (.inl rfl)⟩
  · refine ⟨false, ?_⟩
    have hgroup := IsGroup.equals (.long ho) rfl value.toList
    rwa [String.ofList_append, String.ofList_toList, hname, argument_equals,
      String.ofList_toList] at hgroup

end CommandLevel

namespace OptionGroup

variable {level : CommandLevel}

/-- The argument that a group gives to the analyzer. -/
def argument? (g : OptionGroup level) : Option String :=
  g.uses.findSome? Draft.argument?

/-- Whether a group gives an argument to the analyzer. -/
def isArgument (g : OptionGroup level) : Bool :=
  g.argument?.isSome

theorem argument?_eq_none_iff {g : OptionGroup level} :
    g.argument? = none ↔ ∀ u ∈ g.uses, u.id ≠ .analyzerArg := by
  rcases g.isGroup.argument_cases with hnone | ⟨value, isOpen, -, huses⟩
  · exact iff_of_true (List.findSome?_eq_none_iff.mpr fun u hu =>
      Draft.argument?_eq_none (hnone u hu)) hnone
  · rw [argument?, huses]
    refine iff_of_false nofun fun h => ?_
    exact h _ List.mem_cons_self rfl

theorem argument?_eq_some_iff {g : OptionGroup .verify} {value : String} :
    g.argument? = some value ↔ g.words ∈ argumentSpellings value := by
  constructor
  · intro h
    rcases g.isGroup.argument_cases with hnone | ⟨value', isOpen, hwords, huses⟩
    · exact nomatch h.symm.trans (argument?_eq_none_iff.mpr hnone)
    · rw [argument?, huses] at h
      obtain rfl : value' = value := Option.some.inj h
      exact hwords
  · intro h
    obtain ⟨isOpen, hgroup⟩ := CommandLevel.isGroup_argumentSpellings h
    rw [argument?, g.isGroup.uses_unique hgroup]
    rfl

theorem filterMap_uses (g : OptionGroup level) :
    g.uses.filterMap Draft.argument? = g.argument?.toList := by
  rcases g.isGroup.argument_cases with hnone | ⟨value, isOpen, -, huses⟩
  · rw [argument?_eq_none_iff.mpr hnone]
    exact List.filterMap_eq_nil_iff.mpr fun u hu => Draft.argument?_eq_none (hnone u hu)
  · rw [argument?, huses]
    rfl

/-- What groups give to the analyzer, in their order. -/
theorem filterMap_flatMap_uses (groups : List (OptionGroup level)) :
    (groups.flatMap (·.uses)).filterMap Draft.argument? = groups.filterMap (·.argument?) := by
  rw [List.filterMap_flatMap, List.filterMap_eq_flatMap_toList]
  exact List.flatMap_congr fun g _ => g.filterMap_uses

/-- The groups that give nothing to the analyzer do not matter for the order of its arguments. -/
theorem filter_flatMap_uses (groups : List (OptionGroup level)) :
    (groups.flatMap (·.uses)).filter Draft.IsArgument =
      (groups.filter (·.isArgument)).flatMap (·.uses.filter Draft.IsArgument) := by
  induction groups with
  | nil => rfl
  | cons g groups ih =>
      rw [List.flatMap_cons, List.filter_append, ih]
      by_cases hargument : g.isArgument = true
      · rw [List.filter_cons_of_pos hargument, List.flatMap_cons]
      · have hnone : g.uses.filter Draft.IsArgument = [] := by
          rw [isArgument, Option.not_isSome_iff_eq_none, argument?_eq_none_iff] at hargument
          simpa [Draft.IsArgument] using hargument
        rw [List.filter_cons_of_neg hargument, hnone, List.nil_append]

end OptionGroup

/-! ## Invocations -/

/-- Arguments that ask for a verification. -/
structure VerifyInvocation where
  /-- What stands in front of the subcommand. -/
  front : List (OptionGroup .program)
  groups : List (OptionGroup .verify)
  /-- Whether two dashes stand at the end. -/
  isEscaped : Bool

namespace VerifyInvocation

def last (i : VerifyInvocation) : List String :=
  if i.isEscaped then ["--"] else []

def words (i : VerifyInvocation) : List String :=
  i.front.flatMap (·.words) ++ "verify" :: (i.groups.flatMap (·.words) ++ i.last)

theorem scanAll_words (i : VerifyInvocation) : CommandLevel.program.scanAll i.words =
    ⟨i.front.flatMap (·.uses), .subcommand "verify" (i.groups.flatMap (·.words) ++ i.last)⟩ := by
  rw [CommandLevel.scanAll, words, CommandLevel.scan_groups, CommandLevel.scan_cons]
  have hshape : argumentShape "verify" = .word := by decide
  have hname : CommandLevel.program.isSubcommand "verify" = true := by decide
  simp [hshape, hname, Scan.behind, Scan.ended]

theorem scanAll_groups (i : VerifyInvocation) :
    CommandLevel.verify.scanAll (i.groups.flatMap (·.words) ++ i.last) =
      ⟨i.groups.flatMap (·.uses), .finished⟩ := by
  have hslot : CommandLevel.verify.positional? = none := rfl
  have hlast : CommandLevel.verify.scan none none i.last = .ended .finished := by
    rw [last]
    cases i.isEscaped <;> rfl
  rw [CommandLevel.scanAll, hslot, CommandLevel.scan_groups, hlast, Scan.behind, Scan.ended,
    List.append_nil]

variable {arguments : List String} {c : CommandLine} {o : VerifyOptions} {d : Draft}
  {command : Subcommand} {i : VerifyInvocation} {groups : List (OptionGroup .verify)}

theorem parseLevel_groups_eq_ok_iff :
    CommandLine.parseLevel .verify (i.groups.flatMap (·.words) ++ i.last) = .ok (d, command) ↔
      ({} : Draft).applyAll (i.groups.flatMap (·.uses)) = .ok d ∧ d.hasConflict = false ∧
        d.subcommand? .verify = some command := by
  rw [CommandLine.parseLevel_eq_ok_iff, scanAll_groups]
  exact and_iff_right rfl

theorem parse_words_eq_ok_iff : CommandLine.parse i.words = .ok c ↔
    ∃ front behind command,
      ({} : Draft).applyAll (i.front.flatMap (·.uses)) = .ok front ∧ front.hasConflict = false ∧
      CommandLine.parseLevel .verify (i.groups.flatMap (·.words) ++ i.last) =
        .ok (behind, command) ∧
      c = front.commandLine behind command := by
  rw [CommandLine.parse_eq_ok_iff, scanAll_words]
  constructor
  · rintro ⟨_, _, _, front, behind, command, ⟨⟩, ⟨⟩, h⟩
    exact ⟨front, behind, command, h⟩
  · rintro ⟨front, behind, command, h⟩
    exact ⟨_, _, _, front, behind, command, rfl, rfl, h⟩

/-- A verification that is accepted is an invocation. -/
theorem exists_of_parse (h : CommandLine.parse arguments = .ok c)
    (hverify : c.command = .verify o) : ∃ i : VerifyInvocation, i.words = arguments := by
  obtain ⟨name, rest, level, front, behind, command, hending, hlevel, hfront, -, hbehind, rfl⟩ :=
    CommandLine.parse_eq_ok_iff.mp h
  obtain ⟨hfinished, hall, -, hcommand⟩ := CommandLine.parseLevel_eq_ok_iff.mp hbehind
  obtain rfl : command = .verify o := hverify
  obtain rfl := Draft.eq_verify_of_subcommand? hcommand
  obtain rfl := CommandLevel.eq_of_ofName? hlevel
  have hbefore : CommandLevel.program.IsComplete (CommandLevel.program.scanAll arguments) :=
    ⟨Draft.isGiven_of_applyAll .program hfront, fun e settles => by rw [hending]; exact nofun⟩
  have hafter : CommandLevel.verify.IsComplete (CommandLevel.verify.scanAll rest) :=
    ⟨Draft.isGiven_of_applyAll .verify hall, fun e settles => by rw [hfinished]; exact nofun⟩
  obtain ⟨front, _, rfl, ⟨hend, -⟩ | ⟨_, _, hend, rfl⟩⟩ := CommandLevel.exists_groups _ hbefore
  · exact nomatch hend.symm.trans hending
  obtain ⟨rfl, rfl⟩ := ScanEnd.subcommand.inj (hend.symm.trans hending)
  obtain ⟨groups, _, rfl, ⟨-, rfl | rfl⟩ | ⟨_, _, hend, -⟩⟩ := CommandLevel.exists_groups _ hafter
  · exact ⟨⟨front, groups, false⟩, rfl⟩
  · exact ⟨⟨front, groups, true⟩, rfl⟩
  · exact nomatch hend.symm.trans hfinished

theorem parse_reordered (h : CommandLine.parse i.words = .ok c) (hperm : groups.Perm i.groups)
    (horder : groups.filter (·.isArgument) = i.groups.filter (·.isArgument)) :
    CommandLine.parse { i with groups }.words = .ok c := by
  obtain ⟨front, behind, command, hfront, hfree, hbehind, hc⟩ := parse_words_eq_ok_iff.mp h
  obtain ⟨hall, hcommand⟩ := parseLevel_groups_eq_ok_iff.mp hbehind
  refine parse_words_eq_ok_iff.mpr ⟨front, behind, command, hfront, hfree,
    parseLevel_groups_eq_ok_iff.mpr ⟨?_, hcommand⟩, hc⟩
  refine Draft.applyAll_of_perm hall (hperm.flatMap_right _) ?_
  rw [OptionGroup.filter_flatMap_uses, OptionGroup.filter_flatMap_uses, horder]

theorem analyzerArgs_of_parse (h : CommandLine.parse i.words = .ok c)
    (hverify : c.command = .verify o) :
    o.flags.analyzerArgs = i.groups.filterMap (·.argument?) := by
  obtain ⟨front, behind, command, -, -, hbehind, rfl⟩ := parse_words_eq_ok_iff.mp h
  obtain ⟨hall, -, hcommand⟩ := parseLevel_groups_eq_ok_iff.mp hbehind
  obtain rfl : command = .verify o := hverify
  have hflags : o.flags = behind.flags := by
    rw [Draft.subcommand?] at hcommand
    split at hcommand
    · cases hcommand
      rfl
    · cases hcommand
  rw [hflags, Draft.analyzerArgs_applyAll hall, OptionGroup.filterMap_flatMap_uses]
  rfl

/-- **The options of a verification in another order.** Arguments that are accepted for a
verification are groups of options around the subcommand, and two dashes may end them. The groups
behind the subcommand give the same command line in any order that keeps the one of the analyzer's
arguments, and the analyzer is given these arguments in their order. They are whatever stands behind
`--analyzer-arg`: a hyphen in front, or the name of another option, makes no difference. -/
theorem options_in_another_order (h : CommandLine.parse arguments = .ok c)
    (hverify : c.command = .verify o) :
    (∃ i : VerifyInvocation, i.words = arguments) ∧
    (∀ i : VerifyInvocation, i.words = arguments →
      o.flags.analyzerArgs = i.groups.filterMap (·.argument?) ∧
      ∀ groups, groups.Perm i.groups →
        groups.filter (·.isArgument) = i.groups.filter (·.isArgument) →
          CommandLine.parse { i with groups }.words = .ok c) ∧
    (∀ value, ∀ words ∈ argumentSpellings value,
      ∃ g : OptionGroup .verify, g.words = words) ∧
    ∀ (g : OptionGroup .verify) (value : String),
      g.argument? = some value ↔ g.words ∈ argumentSpellings value := by
  refine ⟨exists_of_parse h hverify, ?_, ?_, fun g value => OptionGroup.argument?_eq_some_iff⟩
  · rintro i rfl
    exact ⟨analyzerArgs_of_parse h hverify, fun groups => parse_reordered h⟩
  · intro value words hwords
    obtain ⟨isOpen, hgroup⟩ := CommandLevel.isGroup_argumentSpellings hwords
    exact ⟨⟨words, _, hgroup⟩, rfl⟩

open CommandLevel in
theorem options_in_another_order_sample : ∃ c o,
    CommandLine.parse ["verify", "-i", "r", "-cc", "--output-csv=o", "--analyzer-arg", "--workers",
      "-vv", "--analyzer-arg=-x"] = .ok c ∧
    CommandLine.parse ["verify", "--analyzer-arg", "--workers", "-vv", "--analyzer-arg=-x",
      "-i", "r", "-cc", "--output-csv=o"] = .ok c ∧
    c.command = .verify o ∧ o.flags.analyzerArgs = ["--workers", "-x"] := by
  have hgiven : CommandLine.parse ["verify", "-i", "r", "-cc", "--output-csv=o", "--analyzer-arg",
      "--workers", "-vv", "--analyzer-arg=-x"] =
    .ok ⟨.verify ⟨⟨"r"⟩, ⟨"c"⟩, ⟨"o"⟩, { analyzerArgs := ["--workers", "-x"] }, false, .human⟩,
      none, 2, false, false⟩ := by decide
  obtain ⟨hi, hi'⟩ := byShort?_eq_some_iff.mp (show byShort? .verify 'i' = some _ from rfl)
  obtain ⟨hc, hc'⟩ := byShort?_eq_some_iff.mp (show byShort? .verify 'c' = some _ from rfl)
  obtain ⟨ho, -⟩ := byLong?_eq_some_iff.mp (show byLong? .verify "output-csv" = some _ from rfl)
  obtain ⟨hv, hv'⟩ := byShort?_eq_some_iff.mp (show byShort? .verify 'v' = some _ from rfl)
  have hroot : IsGroup .verify ["-i", "r"] [⟨.root, some "r", true⟩] :=
    .apart (.short .nil hi hi') rfl (.inr (.inr (by decide)))
  have hcombined : IsGroup .verify ["-cc"] [⟨.combinedFile, some "c", false⟩] :=
    .attached .nil hc hc' rfl (List.cons_ne_nil 'c' []) (by decide)
  have hreport : IsGroup .verify ["--output-csv=o"] [⟨.reportFile, some "o", false⟩] :=
    .equals (.long ho) rfl ['o']
  have hflag : IsFlag .verify _ := ⟨hv, rfl, by decide⟩
  have hverbose : IsGroup .verify ["-vv"] [{ id := .verbose }, { id := .verbose }] :=
    .letters (.cons hflag hv' (.cons hflag hv' .nil)) (by decide)
  obtain ⟨_, hfirst⟩ := isGroup_argumentSpellings
    (show ["--analyzer-arg", "--workers"] ∈ argumentSpellings "--workers" by decide)
  obtain ⟨_, hsecond⟩ := isGroup_argumentSpellings
    (show ["--analyzer-arg=-x"] ∈ argumentSpellings "-x" by decide)
  let files : List (OptionGroup .verify) := [⟨_, _, hroot⟩, ⟨_, _, hcombined⟩, ⟨_, _, hreport⟩]
  let others : List (OptionGroup .verify) := [⟨_, _, hfirst⟩, ⟨_, _, hverbose⟩, ⟨_, _, hsecond⟩]
  obtain ⟨-, hall, -⟩ := options_in_another_order hgiven rfl
  obtain ⟨hargs, horders⟩ := hall ⟨[], files ++ others, false⟩ rfl
  exact ⟨_, _, hgiven, horders (others ++ files) List.perm_append_comm rfl, rfl, hargs⟩

end VerifyInvocation

end RaceSkeletons
