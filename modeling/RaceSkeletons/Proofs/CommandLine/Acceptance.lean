import RaceSkeletons.Proofs.CommandLine.Drafts
import RaceSkeletons.Proofs.CommandLine.Groups

/-!
# Accepted command lines

A command line is accepted if the scan ends at a subcommand, the options on both sides of it are
accepted, and what is behind it is complete (`CommandLine.parse_eq_ok_iff`,
`CommandLine.parseLevel_eq_ok_iff`). The faults that a parse reports before it comes so far do not
matter here.

An option that is accepted has a value if it needs one (`Draft.isGiven_of_apply`). This is what
groups need to know of a scan.
-/

namespace RaceSkeletons

namespace Draft

variable {d d' : Draft} {uses : List OptionUse}

theorem bind_checked_eq_ok_iff {r : Except UsageError Draft} :
    r.bind checked = .ok d ↔ r = .ok d ∧ d.hasConflict = false := by
  cases r with
  | error e => exact ⟨nofun, fun ⟨h, _⟩ => nomatch h⟩
  | ok e =>
      rw [Except.bind, checked]
      split
      · next hconflict =>
          refine ⟨nofun, fun ⟨h, hfree⟩ => ?_⟩
          rw [Except.ok.inj h, hfree] at hconflict
          exact nomatch hconflict
      · next hfree =>
          exact ⟨fun h => ⟨h, Except.ok.inj h ▸ Bool.eq_false_iff.mpr hfree⟩, And.left⟩

/-- An option that needs a value has one if it is accepted. -/
theorem isGiven_of_apply {u : OptionUse} (level : CommandLevel) (h : d.apply u = .ok d') :
    level.IsGiven u := by
  rintro o ho htakes hid hnone
  have hflags : ∀ o ∈ level.options, o.takesValue = true →
      o.id ∉ [OptionId.debugAnalyzer, .skipNormalize, .verbose, .quiet, .logJson, .help,
        .version] := by
    cases level <;> decide
  have hflag := hflags o ho htakes
  obtain ⟨x, hx, -⟩ := apply_eq_ok_iff.mp h
  rw [hnone] at hx
  rw [hid] at hflag
  generalize u.id = i at x hx hflag
  cases i <;> first | exact absurd (by decide) hflag | exact nomatch hx

theorem isGiven_of_applyAll (level : CommandLevel) (h : d.applyAll uses = .ok d') :
    ∀ u ∈ uses, level.IsGiven u := by
  induction uses generalizing d with
  | nil => exact nofun
  | cons u uses ih =>
      obtain ⟨d₁, hu, hrest⟩ := applyAll_cons_eq_ok_iff.mp h
      exact List.forall_mem_cons.mpr ⟨isGiven_of_apply level hu, ih hrest⟩

/-- Only the arguments behind `verify` become a verification. -/
theorem eq_verify_of_subcommand? {level : CommandLevel} {o : VerifyOptions}
    (h : d.subcommand? level = some (.verify o)) : level = .verify := by
  cases level with
  | verify => rfl
  | program => cases h
  | discover => exact nomatch (Option.map_eq_some_iff.mp h).choose_spec.2
  | config => cases h

end Draft

theorem CommandLevel.eq_of_ofName? {name : String} (h : ofName? name = some .verify) :
    name = "verify" := by
  rw [ofName?.eq_def] at h
  split at h
  · rfl
  all_goals exact nomatch h

theorem Scan.settled_append_unsettled (s : Scan) : s.settled ++ s.unsettled = s.uses := by
  rw [settled, unsettled]
  rcases List.eq_nil_or_concat s.uses with hnil | ⟨uses, u, hconcat⟩
  · simp [hnil]
  · cases hopen : u.isOpen <;> simp [hconcat, hopen]

namespace CommandLine

variable {level : CommandLevel} {arguments : List String} {d : Draft} {command : Subcommand}

theorem parseLevel_eq_ok_iff : parseLevel level arguments = .ok (d, command) ↔
    (level.scanAll arguments).ending = .finished ∧
      ({} : Draft).applyAll (level.scanAll arguments).uses = .ok d ∧ d.hasConflict = false ∧
        d.subcommand? level = some command := by
  rw [parseLevel]
  cases hending : (level.scanAll arguments).ending with
  | subcommand name rest => simp
  | stopped e settles =>
      simp only
      split <;> simp
  | finished =>
      rw [← and_assoc (a := _ = Except.ok d), ← Draft.bind_checked_eq_ok_iff]
      cases (({} : Draft).applyAll (level.scanAll arguments).uses).bind Draft.checked with
      | error e => simp
      | ok d' =>
          cases hcommand : d'.subcommand? level with
          | none =>
              simp only [hcommand]
              refine ⟨nofun, ?_⟩
              rintro ⟨-, ⟨⟩, hsome⟩
              exact nomatch hcommand.symm.trans hsome
          | some command' =>
              simp only [hcommand]
              constructor
              · rintro ⟨⟩
                exact ⟨trivial, rfl, hcommand⟩
              · rintro ⟨-, ⟨⟩, hsome⟩
                rw [Option.some.inj (hcommand.symm.trans hsome)]

/-- The options on both sides of the subcommand are accepted, and the last of those in front may
wait for those behind. -/
theorem parse_eq_ok_iff {c : CommandLine} : parse arguments = .ok c ↔
    ∃ name rest level front behind command,
      (CommandLevel.program.scanAll arguments).ending = .subcommand name rest ∧
      CommandLevel.ofName? name = some level ∧
      ({} : Draft).applyAll (CommandLevel.program.scanAll arguments).uses = .ok front ∧
      front.hasConflict = false ∧
      parseLevel level rest = .ok (behind, command) ∧
      c = front.commandLine behind command := by
  rw [parse, ← Scan.settled_append_unsettled]
  simp only [Draft.applyAll_append_eq_ok_iff]
  cases hending : (CommandLevel.program.scanAll arguments).ending with
  | finished =>
      simp only
      split <;> simp
  | stopped e settles =>
      simp only
      split <;> simp
  | subcommand name rest =>
      constructor
      · intro h
        simp only at h
        split at h
        · cases h
        next settled hsettled =>
        split at h
        · cases h
        next level hlevel =>
        rw [parseSubcommand] at h
        split at h
        · cases h
        next behind command hbehind =>
        split at h
        · cases h
        next front hfront =>
        obtain ⟨hall, hfree⟩ := Draft.bind_checked_eq_ok_iff.mp hfront
        exact ⟨name, rest, level, front, behind, command, rfl, hlevel, ⟨settled, hsettled, hall⟩,
          hfree, hbehind, (Except.ok.inj h).symm⟩
      · rintro ⟨_, _, level, front, behind, command, ⟨⟩, hlevel, ⟨settled, hsettled, hall⟩, hfree,
          hbehind, rfl⟩
        have hfront := Draft.bind_checked_eq_ok_iff.mpr ⟨hall, hfree⟩
        simp only [hsettled, hlevel, parseSubcommand, hbehind, hfront]

end CommandLine

end RaceSkeletons
