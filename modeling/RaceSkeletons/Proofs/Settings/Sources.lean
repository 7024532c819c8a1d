import Mathlib
import RaceSkeletons.Proofs.Settings

/-!
# Where settings come from

A setting has up to three sources: a flag, a variable of the environment, and a default. The
first one that has a value decides (`Chosen`), and a variable that cannot be read has none. What
all sources say together is one set of values (`Settings.isMerged_iff`), and only these are
checked (`Settings.checked_eq_ok_iff`).

So whatever a flag replaces is never looked at: two environments that differ in nothing else
have the same outcome (`Settings.IsMerged.of_agree`).
-/

namespace RaceSkeletons

/-! ## Sources -/

/-- Whether a value comes from the first of three sources that has one: a flag, what can be
read in a variable, and a default. -/
inductive Chosen {α : Type} (given : Option α) (reads : α → Prop) (default : α) : α → Prop
  | flag {value : α} (h : given = some value) : Chosen given reads default value
  | held {value : α} (hnone : given = none) (h : reads value) :
      Chosen given reads default value
  | fallback (hnone : given = none) (h : ∀ value, ¬ reads value) :
      Chosen given reads default default

section

variable {α : Type} {given : Option α} {reads reads' : α → Prop} {default value : α}

theorem chosen_iff {read? : Option α} (hread : ∀ value, read? = some value ↔ reads value) :
    Chosen given reads default value ↔ value = given.getD (read?.getD default) := by
  constructor
  · rintro (hflag | ⟨hnone, hreads⟩ | ⟨hnone, hfails⟩)
    · rw [hflag]
      rfl
    · rw [hnone, (hread value).mpr hreads]
      rfl
    · rw [hnone, Option.eq_none_iff_forall_ne_some.mpr fun v hv => hfails v ((hread v).mp hv)]
      rfl
  · rintro rfl
    cases hgiven : given with
    | some v => exact .flag rfl
    | none =>
        cases hvariable : read? with
        | some v => exact .held rfl ((hread v).mp hvariable)
        | none => exact .fallback rfl fun v hv => nomatch hvariable.symm.trans ((hread v).mpr hv)

/-- What a flag replaces does not matter. -/
theorem Chosen.congr (hsame : given = none → ∀ value, reads value ↔ reads' value)
    (h : Chosen given reads default value) : Chosen given reads' default value := by
  cases h with
  | flag hflag => exact .flag hflag
  | held hnone hreads => exact .held hnone ((hsame hnone _).mp hreads)
  | fallback hnone hfails =>
      exact .fallback hnone fun v hv => hfails v ((hsame hnone v).mpr hv)

end

/-! ## Variables -/

/-- Whether a text is a number of a machine word: decimal digits, perhaps with a plus sign in
front. -/
def IsNumeral (s : String) (n : Nat) : Prop :=
  ∃ digits, (s.toList = digits ∨ s.toList = '+' :: digits) ∧ digits ≠ [] ∧
    (∀ d ∈ digits, d.isDigit = true) ∧ n = Nat.ofDigitChars 10 digits 0 ∧ n < 2 ^ 64

theorem readDecimal_eq_some_iff {digits : List Char} {value : Nat} : ∀ {n : Nat},
    readDecimal n digits = some value ↔
      (∀ d ∈ digits, d.isDigit = true) ∧ value = Nat.ofDigitChars 10 digits n := by
  induction digits with
  | nil =>
      intro n
      rw [readDecimal, Option.some_inj, Nat.ofDigitChars_nil, eq_comm]
      exact (and_iff_right nofun).symm
  | cons d digits ih =>
      intro n
      rw [readDecimal, Nat.ofDigitChars_cons, List.forall_mem_cons, Nat.mul_comm 10]
      split
      · next hd => rw [ih, and_iff_right hd]
      · next hd => exact ⟨nofun, fun h => absurd h.1.1 hd⟩

/-- Without a sign, and with one. -/
theorem readWord?_eq_some_iff {s : String} {n : Nat} : readWord? s = some n ↔ IsNumeral s n := by
  have hread : ∀ digits : List Char,
      (if digits = [] then none else (readDecimal 0 digits).filter (· < wordLimit)) = some n ↔
        digits ≠ [] ∧ (∀ d ∈ digits, d.isDigit = true) ∧ n = Nat.ofDigitChars 10 digits 0 ∧
          n < 2 ^ 64 := by
    intro digits
    split
    · next hempty => exact ⟨nofun, fun h => absurd hempty h.1⟩
    · next hne =>
        rw [Option.filter_eq_some_iff, readDecimal_eq_some_iff, decide_eq_true_iff, and_assoc]
        exact (and_iff_right hne).symm
  rw [readWord?, IsNumeral]
  split
  · next rest hsign =>
      rw [hread]
      constructor
      · exact fun h => ⟨rest, .inr hsign, h⟩
      · rintro ⟨digits, hall | hrest, hne, hdigits, hvalue⟩
        · -- a plus sign is no digit
          have hplus := hdigits '+' (hall ▸ hsign ▸ List.mem_cons_self)
          exact absurd hplus (by decide)
        · obtain rfl := (List.cons.inj (hsign.symm.trans hrest)).2
          exact ⟨hne, hdigits, hvalue⟩
  · next hnone =>
      rw [hread]
      constructor
      · exact fun h => ⟨_, .inl rfl, h⟩
      · rintro ⟨digits, rfl | hrest, h⟩
        · exact h
        · exact absurd hrest (hnone digits)

namespace Environment

variable {env env' : Environment} {name value : String} {n : Nat}

/-- Whether a variable is set to a text. -/
def Holds (env : Environment) (name value : String) : Prop :=
  ∃ bytes, env.bindings.lookup name = some bytes ∧ Utf8.decode? bytes = some value

/-- Whether a variable is set to a number. -/
def HoldsNumber (env : Environment) (name : String) (n : Nat) : Prop :=
  ∃ value, env.Holds name value ∧ IsNumeral value n

/-- Two environments with the same variables, but for some. -/
def AgreeBut (env : Environment) (names : List String) (env' : Environment) : Prop :=
  ∀ name ∉ names, env.bindings.lookup name = env'.bindings.lookup name

theorem text?_eq_some_iff : env.text? name = some value ↔ env.Holds name value :=
  Option.bind_eq_some_iff

theorem number?_eq_some_iff : env.number? name = some n ↔ env.HoldsNumber name n := by
  simp only [number?, Option.bind_eq_some_iff, text?_eq_some_iff, readWord?_eq_some_iff,
    HoldsNumber]

theorem isSet_iff : env.isSet name = true ↔ ∃ value, env.Holds name value ∧ value ≠ "" := by
  simp only [isSet, Option.any_eq_true, text?_eq_some_iff, decide_eq_true_iff]

theorem AgreeBut.holds_iff {names : List String} (h : env.AgreeBut names env')
    (hname : name ∉ names) : env.Holds name value ↔ env'.Holds name value := by
  rw [Holds, Holds, h name hname]

theorem AgreeBut.holdsNumber_iff {names : List String} (h : env.AgreeBut names env')
    (hname : name ∉ names) : env.HoldsNumber name n ↔ env'.HoldsNumber name n :=
  exists_congr fun _ => and_congr_left' (h.holds_iff hname)

end Environment

namespace Settings

variable {env env' : Environment} {hostWorkers : Nat} {f : Flags} {s : Settings}

/-! ## All sources together -/

/-- Whether an extension is what is left of a text without the dots in front. -/
def IsWithoutDots (text extension : String) : Prop :=
  ∃ dots, text.toList = dots ++ extension.toList ∧ (∀ c ∈ dots, c = '.') ∧
    extension.toList.head? ≠ some '.'

theorem isWithoutDots_iff {text extension : String} :
    IsWithoutDots text extension ↔ extension = bareExtension text := by
  constructor
  · rintro ⟨dots, htext, hdots, hhead⟩
    have hdrop : extension.toList.dropWhile (· == '.') = extension.toList := by
      rw [List.dropWhile_eq_self_iff]
      intro hpos hdot
      rw [List.head?_eq_getElem?, List.getElem?_eq_getElem hpos, beq_iff_eq.mp hdot] at hhead
      exact hhead rfl
    rw [bareExtension, htext, List.dropWhile_append_of_pos fun c hc => beq_iff_eq.mpr (hdots c hc),
      hdrop, String.ofList_toList]
  · rintro rfl
    rw [IsWithoutDots, bareExtension, String.toList_ofList]
    refine ⟨text.toList.takeWhile (· == '.'), List.takeWhile_append_dropWhile.symm,
      fun c hc => ?_, fun hhead => ?_⟩
    · exact beq_iff_eq.mp (List.mem_takeWhile_imp (p := (· == '.')) hc)
    · have hnot := List.head?_dropWhile_not (· == '.') text.toList
      rw [hhead] at hnot
      cases hnot

/-- Whether every setting has the value that its sources give it. The debug mode is on if any
source turns it on. -/
structure IsMerged (env : Environment) (hostWorkers : Nat) (f : Flags) (s : Settings) : Prop where
  analyzer : Chosen f.analyzer (fun p => env.Holds "SKELCHECK_ANALYZER" p.text)
    ⟨"./bin/analyzer"⟩ s.analyzer
  analyzerArgs : s.analyzerArgs = f.analyzerArgs
  analyzerDebug : s.analyzerDebug = true ↔ f.debugAnalyzer = true ∨
    ∃ name ∈ ["SKELCHECK_ANALYZER_DEBUG", "DEBUG"], ∃ value, env.Holds name value ∧ value ≠ ""
  timeoutSecs : Chosen f.timeout (env.HoldsNumber "SKELCHECK_ANALYZER_TIMEOUT") 120 s.timeoutSecs
  workers : Chosen f.workers (env.HoldsNumber "SKELCHECK_WORKERS") hostWorkers s.workers
  formatter : Chosen f.formatter (fun p => env.Holds "SKELCHECK_FORMATTER" p.text) ⟨"gofmt"⟩
    s.formatter
  extension : ∃ text, Chosen f.extension (env.Holds "SKELCHECK_EXTENSION") "go" text ∧
    IsWithoutDots text s.extension
  varPrefix : Chosen f.varPrefix (env.Holds "SKELCHECK_VAR_PREFIX") "racyVar" s.varPrefix
  logLevel : ∃ word, Chosen none (env.Holds "SKELCHECK_LOG_LEVEL") "info" word ∧
    s.logLevel = Text.lowered word

theorem chosen_path_iff {given : Option Path} {name : String} {default p : Path} :
    Chosen given (fun p => env.Holds name p.text) default p ↔
      p = given.getD (((env.text? name).map Path.mk).getD default) := by
  refine chosen_iff fun p => ?_
  rw [Option.map_eq_some_iff, ← Environment.text?_eq_some_iff]
  constructor
  · rintro ⟨text, htext, rfl⟩
    exact htext
  · exact fun htext => ⟨p.text, htext, rfl⟩

theorem chosen_extension_iff {extension : String} :
    (∃ text, Chosen f.extension (env.Holds "SKELCHECK_EXTENSION") "go" text ∧
        IsWithoutDots text extension) ↔
      extension = (f.extension.map bareExtension).getD
        (((env.text? "SKELCHECK_EXTENSION").map bareExtension).getD "go") := by
  have hdefault : bareExtension "go" = "go" := by decide
  have hout : ∀ (o : Option String) (text : String),
      bareExtension (o.getD text) = (o.map bareExtension).getD (bareExtension text) := by
    intro o text
    cases o <;> rfl
  simp only [chosen_iff fun _ => Environment.text?_eq_some_iff, isWithoutDots_iff, exists_eq_left,
    hout, hdefault]

/-- There is one set of values that all sources give. -/
theorem isMerged_iff : IsMerged env hostWorkers f s ↔
    s = (ofEnvironment env hostWorkers).withFlags f := by
  have hargs : (if f.analyzerArgs = [] then [] else f.analyzerArgs) = f.analyzerArgs := by
    split
    · next h => exact h.symm
    · rfl
  have hdebug : ((env.isSet "SKELCHECK_ANALYZER_DEBUG" || env.isSet "DEBUG") || f.debugAnalyzer) =
      true ↔ f.debugAnalyzer = true ∨
        ∃ name ∈ ["SKELCHECK_ANALYZER_DEBUG", "DEBUG"],
          ∃ value, env.Holds name value ∧ value ≠ "" := by
    rw [Bool.or_eq_true, Bool.or_eq_true, or_comm, Environment.isSet_iff, Environment.isSet_iff]
    simp only [List.mem_pair, exists_eq_or_imp, exists_eq_left]
  constructor
  · intro h
    obtain ⟨analyzer, args, debug, timeout, workers, formatter, extension, varPrefix, level⟩ := s
    obtain ⟨word, hword, hlevel⟩ := h.logLevel
    simp only [withFlags, ofEnvironment, Settings.mk.injEq]
    exact ⟨chosen_path_iff.mp h.analyzer, h.analyzerArgs.trans hargs.symm,
      Bool.eq_iff_iff.mpr (h.analyzerDebug.trans hdebug.symm),
      (chosen_iff fun _ => Environment.number?_eq_some_iff).mp h.timeoutSecs,
      (chosen_iff fun _ => Environment.number?_eq_some_iff).mp h.workers,
      chosen_path_iff.mp h.formatter, chosen_extension_iff.mp h.extension,
      (chosen_iff fun _ => Environment.text?_eq_some_iff).mp h.varPrefix,
      hlevel.trans (congrArg _ ((chosen_iff fun _ => Environment.text?_eq_some_iff).mp hword))⟩
  · rintro rfl
    exact {
      analyzer := chosen_path_iff.mpr rfl
      analyzerArgs := hargs
      analyzerDebug := hdebug
      timeoutSecs := (chosen_iff fun _ => Environment.number?_eq_some_iff).mpr rfl
      workers := (chosen_iff fun _ => Environment.number?_eq_some_iff).mpr rfl
      formatter := chosen_path_iff.mpr rfl
      extension := chosen_extension_iff.mpr rfl
      varPrefix := (chosen_iff fun _ => Environment.text?_eq_some_iff).mpr rfl
      logLevel := ⟨_, (chosen_iff fun _ => Environment.text?_eq_some_iff).mpr rfl, rfl⟩ }

/-! ## Values in range -/

/-- Settings that a run can be started with. -/
structure InRange (s : Settings) : Prop where
  workers : 1 ≤ s.workers
  timeout : 1 ≤ s.timeoutSecs ∧ s.timeoutSecs ≤ 3600
  analyzer : s.analyzer.text ≠ ""
  extension : s.extension ≠ "" ∧ '/' ∉ s.extension.toList ∧ '.' ∉ s.extension.toList
  varPrefix : ∃ c rest, s.varPrefix.toList = c :: rest ∧ (c.isAlpha = true ∨ c = '_') ∧
    ∀ d ∈ rest, d.isAlpha = true ∨ d.isDigit = true ∨ d = '_'
  logLevel : Text.lowered (Text.trimmed s.logLevel) ∈
    ["trace", "debug", "info", "warn", "warning", "error"]

theorem isIdentifier_iff {word : String} : isIdentifier word = true ↔
    ∃ c rest, word.toList = c :: rest ∧ (c.isAlpha = true ∨ c = '_') ∧
      ∀ d ∈ rest, d.isAlpha = true ∨ d.isDigit = true ∨ d = '_' := by
  have hstarts : ∀ c, startsIdentifier c = true ↔ c.isAlpha = true ∨ c = '_' := fun c => by
    rw [startsIdentifier, Bool.or_eq_true, beq_iff_eq]
  rw [isIdentifier]
  split
  · next hempty =>
      refine iff_of_false Bool.false_ne_true ?_
      rintro ⟨c, rest, hcons, -⟩
      rw [hempty] at hcons
      cases hcons
  · next c rest hcons =>
      simp only [hcons, Bool.and_eq_true, List.all_eq_true, Bool.or_eq_true, hstarts,
        List.cons.injEq]
      constructor
      · rintro ⟨hc, hrest⟩
        exact ⟨c, rest, ⟨rfl, rfl⟩, hc, fun d hd => or_assoc.mp (or_right_comm.mp (hrest d hd))⟩
      · rintro ⟨_, _, ⟨rfl, rfl⟩, hc, hrest⟩
        exact ⟨hc, fun d hd => or_right_comm.mp (or_assoc.mpr (hrest d hd))⟩

theorem isSome_parse?_iff {word : String} : (LogLevel.parse? word).isSome = true ↔
    Text.lowered (Text.trimmed word) ∈
      ["trace", "debug", "info", "warn", "warning", "error"] := by
  rw [LogLevel.parse?]
  split <;> simp_all

/-- The checks find nothing exactly if all values are in range. -/
theorem fault?_eq_none_iff : s.fault? = none ↔ s.InRange := by
  have hlevel : ¬ (LogLevel.parse? s.logLevel).isNone = true ↔
      (LogLevel.parse? s.logLevel).isSome = true := by
    cases LogLevel.parse? s.logLevel <;> simp
  simp only [fault?, ite_some_eq_none, Bool.not_eq_true', Bool.not_eq_false, and_true,
    isBareExtension_iff, isIdentifier_iff, hlevel, isSome_parse?_iff, maxTimeoutSecs, not_lt]
  constructor
  · rintro ⟨hworkers, hpositive, hlong, hanalyzer, hextension, hprefix, hlog⟩
    exact ⟨Nat.pos_of_ne_zero hworkers, ⟨Nat.pos_of_ne_zero hpositive, hlong⟩, hanalyzer,
      hextension, hprefix, hlog⟩
  · rintro ⟨hworkers, ⟨hpositive, hlong⟩, hanalyzer, hextension, hprefix, hlog⟩
    exact ⟨by omega, by omega, hlong, hanalyzer, hextension, hprefix, hlog⟩

theorem checked_eq_ok_iff {s' : Settings} : s.checked = .ok s' ↔ s = s' ∧ s.InRange := by
  rw [checked, ← fault?_eq_none_iff]
  cases s.fault? with
  | none => simp
  | some e => simp

/-! ## Variables that flags replace -/

/-- The variables that do not matter because of a flag. -/
def Flags.replaced (f : Flags) : List String :=
  [("SKELCHECK_ANALYZER", f.analyzer.isSome), ("SKELCHECK_WORKERS", f.workers.isSome),
    ("SKELCHECK_ANALYZER_TIMEOUT", f.timeout.isSome), ("SKELCHECK_FORMATTER", f.formatter.isSome),
    ("SKELCHECK_EXTENSION", f.extension.isSome), ("SKELCHECK_VAR_PREFIX", f.varPrefix.isSome),
    ("SKELCHECK_ANALYZER_DEBUG", f.debugAnalyzer), ("DEBUG", f.debugAnalyzer)].filterMap
      fun entry => if entry.2 then some entry.1 else none

/-- What the sources give does not depend on variables that flags replace. -/
theorem IsMerged.of_agree (h : IsMerged env hostWorkers f s)
    (hagree : env.AgreeBut f.replaced env') : IsMerged env' hostWorkers f s := by
  obtain ⟨text, htext, hdots⟩ := h.extension
  obtain ⟨word, hword, hlevel⟩ := h.logLevel
  exact {
    analyzer := h.analyzer.congr fun hnone p => hagree.holds_iff (by simp [Flags.replaced, hnone])
    analyzerArgs := h.analyzerArgs
    analyzerDebug := by
      rw [h.analyzerDebug]
      cases hdebug : f.debugAnalyzer with
      | true => exact ⟨fun _ => .inl rfl, fun _ => .inl rfl⟩
      | false =>
          refine or_congr_right (exists_congr fun name => and_congr_right fun hname =>
            exists_congr fun value => and_congr_left' (hagree.holds_iff ?_))
          rcases List.mem_pair.mp hname with rfl | rfl <;> simp [Flags.replaced, hdebug]
    timeoutSecs := h.timeoutSecs.congr fun hnone n =>
      hagree.holdsNumber_iff (by simp [Flags.replaced, hnone])
    workers := h.workers.congr fun hnone n =>
      hagree.holdsNumber_iff (by simp [Flags.replaced, hnone])
    formatter := h.formatter.congr fun hnone p => hagree.holds_iff (by simp [Flags.replaced, hnone])
    extension := ⟨text, htext.congr fun hnone _ =>
      hagree.holds_iff (by simp [Flags.replaced, hnone]), hdots⟩
    varPrefix := h.varPrefix.congr fun hnone _ => hagree.holds_iff (by simp [Flags.replaced, hnone])
    logLevel := ⟨word, hword.congr fun _ _ => hagree.holds_iff (by simp [Flags.replaced]), hlevel⟩ }

/-- **Settings come from flags, variables and defaults, in this order.** For every environment
and all flags there is one set of values that the sources give, and the settings are these
values if they are in range, and an error otherwise. Environments that differ only in variables
that flags replace give the same result, settings or error, whatever such a variable holds. -/
theorem resolve_from_sources (env : Environment) (hostWorkers : Nat) (f : Flags) :
    (∃! s, IsMerged env hostWorkers f s) ∧
      (∀ s, resolve env hostWorkers f = .ok s ↔ IsMerged env hostWorkers f s ∧ s.InRange) ∧
      (∀ s, IsMerged env hostWorkers f s → ¬ s.InRange →
        ∃ e, resolve env hostWorkers f = .error e) ∧
      ∀ env', env.AgreeBut f.replaced env' →
        resolve env' hostWorkers f = resolve env hostWorkers f := by
  refine ⟨⟨_, isMerged_iff.mpr rfl, fun _ => isMerged_iff.mp⟩, fun s => ?_, fun s hs hout => ?_,
    fun env' hagree => ?_⟩
  · rw [isMerged_iff, resolve, checked_eq_ok_iff]
    constructor
    · rintro ⟨rfl, hrange⟩
      exact ⟨rfl, hrange⟩
    · rintro ⟨rfl, hrange⟩
      exact ⟨rfl, hrange⟩
  · cases hresult : resolve env hostWorkers f with
    | error e => exact ⟨e, rfl⟩
    | ok s' =>
        rw [resolve, ← isMerged_iff.mp hs, checked_eq_ok_iff] at hresult
        exact absurd hresult.2 hout
  · have hsame := (isMerged_iff.mpr rfl : IsMerged env hostWorkers f _).of_agree hagree
    rw [resolve, resolve, ← isMerged_iff.mp hsame]

/-- Variables that are no number, too large a number and no identifier do no harm behind flags,
and the large number is an error without its flag. -/
theorem resolve_from_sources_sample :
    let kept : Environment := ⟨[("SKELCHECK_EXTENSION", Utf8.encode "..src")]⟩
    let env : Environment :=
      ⟨[("SKELCHECK_WORKERS", Utf8.encode "many"),
        ("SKELCHECK_ANALYZER_TIMEOUT", Utf8.encode "+9999"),
        ("SKELCHECK_VAR_PREFIX", Utf8.encode "racy var")] ++ kept.bindings⟩
    let f : Flags := { workers := some 7, timeout := some 30, varPrefix := some "racy_" }
    let s : Settings :=
      { workers := 7, timeoutSecs := 30, extension := "src", varPrefix := "racy_" }
    kept.AgreeBut f.replaced env ∧ s.InRange ∧ IsMerged env 4 f s ∧ resolve env 4 f = .ok s ∧
      ∃ s' e, IsMerged env 4 { f with timeout := none } s' ∧ ¬ s'.InRange ∧
        resolve env 4 { f with timeout := none } = .error e := by
  intro kept env f s
  have hagree : kept.AgreeBut f.replaced env := by
    intro name hname
    have hreplaced : f.replaced =
        ["SKELCHECK_WORKERS", "SKELCHECK_ANALYZER_TIMEOUT", "SKELCHECK_VAR_PREFIX"] := by decide
    rw [hreplaced] at hname
    simp only [List.mem_cons, List.not_mem_nil, or_false, not_or] at hname
    obtain ⟨hworkers, htimeout, hprefix⟩ := hname
    simp [env, List.lookup_cons, beq_false_of_ne hworkers, beq_false_of_ne htimeout,
      beq_false_of_ne hprefix]
  have hkept : resolve kept 4 f = .ok s := by decide
  obtain ⟨-, -, -, hsame⟩ := resolve_from_sources kept 4 f
  have hresolved : resolve env 4 f = .ok s := (hsame env hagree).trans hkept
  obtain ⟨-, hok, -⟩ := resolve_from_sources env 4 f
  obtain ⟨hmerged, hrange⟩ := (hok s).mp hresolved
  obtain ⟨⟨s', hmerged', -⟩, hok', herror, -⟩ :=
    resolve_from_sources env 4 { f with timeout := none }
  have hlong : resolve env 4 { f with timeout := none } = .error .timeoutTooLong := by
    decide
  have hout : ¬ s'.InRange := fun hrange' =>
    nomatch hlong.symm.trans ((hok' s').mpr ⟨hmerged', hrange'⟩)
  obtain ⟨e, he⟩ := herror s' hmerged' hout
  exact ⟨hagree, hrange, hmerged, hresolved, s', e, hmerged', hout, he⟩

end Settings

end RaceSkeletons
