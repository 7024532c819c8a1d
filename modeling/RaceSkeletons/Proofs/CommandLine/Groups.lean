import Mathlib.Data.List.TakeWhile
import RaceSkeletons.CommandLine.Scan

/-!
# Groups of arguments

The arguments of a level are groups: a flag, or an option with its value, in any of the spellings
that there are (`CommandLevel.IsGroup`). A scan takes the groups apart one after the other, and
what it finds in one does not depend on the others (`CommandLevel.scan_groups`).

Groups are all there is: arguments that are scanned to their end, or up to a subcommand, with a
value for each option that needs one, are the words of some groups
(`CommandLevel.exists_groups`). Only two dashes may stand behind them.
-/

namespace RaceSkeletons

/-! ## Spellings -/

namespace CommandLevel

/-- Whether an option is given without a value and does not end the scan. -/
structure IsFlag (level : CommandLevel) (o : OptionSpec) : Prop where
  mem : o ∈ level.options
  noValue : o.takesValue = false
  goesOn : o.id ≠ .help ∧ o.id ≠ .version

/-- The letters of some flags, and the flags. -/
inductive AreFlags (level : CommandLevel) : List Char → List OptionUse → Prop
  | nil : AreFlags level [] []
  | cons {o : OptionSpec} {c : Char} {cs : List Char} {uses : List OptionUse}
      (ho : level.IsFlag o) (hc : o.short = some c) (hrest : AreFlags level cs uses) :
      AreFlags level (c :: cs) ({ id := o.id } :: uses)

/-- An argument up to the end of the name of an option. Flags share a dash with a letter behind
them. -/
inductive IsNamed (level : CommandLevel) : List Char → List OptionUse → OptionSpec → Prop
  | long {o : OptionSpec} (ho : o ∈ level.options) :
      IsNamed level ('-' :: '-' :: o.long.toList) [] o
  | short {o : OptionSpec} {c : Char} {cs : List Char} {uses : List OptionUse}
      (hflags : AreFlags level cs uses) (ho : o ∈ level.options) (hc : o.short = some c) :
      IsNamed level ('-' :: (cs ++ [c])) uses o

end CommandLevel

/-- Whether an argument does not look like an option. -/
def IsPlainArgument (argument : String) : Prop :=
  argument = "-" ∨ argument.toList.head? ≠ some '-'

namespace CommandLevel

/-- A group of arguments at a level, and the options that it gives. -/
inductive IsGroup (level : CommandLevel) : List String → List OptionUse → Prop
  /-- A flag by its name, such as `--verbose`. -/
  | flag {o : OptionSpec} (ho : level.IsFlag o) :
      IsGroup level [String.ofList ('-' :: '-' :: o.long.toList)] [{ id := o.id }]
  /-- Flags by their letters, such as `-v` and `-vv`. -/
  | letters {cs : List Char} {uses : List OptionUse} (hflags : level.AreFlags cs uses)
      (hne : cs ≠ []) : IsGroup level [String.ofList ('-' :: cs)] uses
  /-- A value behind an equals sign, such as `--format=json` and `-f=json`. -/
  | equals {o : OptionSpec} {name : List Char} {uses : List OptionUse}
      (hname : level.IsNamed name uses o) (ho : o.takesValue = true) (value : List Char) :
      IsGroup level [String.ofList (name ++ '=' :: value)]
        (uses ++ [{ id := o.id, value := some (String.ofList value) }])
  /-- A value right behind a letter, such as `-fjson`. -/
  | attached {o : OptionSpec} {c : Char} {cs value : List Char} {uses : List OptionUse}
      (hflags : level.AreFlags cs uses) (hmem : o ∈ level.options) (hc : o.short = some c)
      (ho : o.takesValue = true) (hvalue : value ≠ []) (hequals : value.head? ≠ some '=') :
      IsGroup level [String.ofList ('-' :: (cs ++ c :: value))]
        (uses ++ [{ id := o.id, value := some (String.ofList value) }])
  /-- A value that is an argument of its own, such as `--format json`. -/
  | apart {o : OptionSpec} {name : List Char} {uses : List OptionUse} {value : String}
      (hname : level.IsNamed name uses o) (ho : o.takesValue = true)
      (hvalue : o.value = .any ∨ IsPlainArgument value) :
      IsGroup level [String.ofList name, value]
        (uses ++ [{ id := o.id, value := some value, isOpen := true }])

end CommandLevel

/-- A group of arguments. -/
structure OptionGroup (level : CommandLevel) where
  words : List String
  uses : List OptionUse
  isGroup : level.IsGroup words uses

/-- A scan that has met some options before. -/
def Scan.behind (uses : List OptionUse) (s : Scan) : Scan :=
  { s with uses := uses ++ s.uses }

theorem Scan.behind_cons (uses : List OptionUse) (u : OptionUse) (s : Scan) :
    (s.cons u).behind uses = s.behind (uses ++ [u]) := by
  rw [behind, behind, cons, List.append_assoc]
  rfl

theorem Scan.behind_behind (front uses : List OptionUse) (s : Scan) :
    (s.behind uses).behind front = s.behind (front ++ uses) := by
  simp only [behind, List.append_assoc]

namespace CommandLevel

variable {level : CommandLevel} {slot : Option OptionId} {o : OptionSpec} {c : Char}
  {cs name value : List Char} {uses : List OptionUse} {rest words : List String}

/-! ## Names of options -/

/-- No two options of a level have the same name. -/
theorem byLong?_of_mem (h : o ∈ level.options) : level.byLong? o.long = some o := by
  revert o
  cases level <;> decide

theorem byShort?_of_mem (h : o ∈ level.options) (hc : o.short = some c) :
    level.byShort? c = some o := by
  have hall : ∀ o ∈ level.options, o.short.all (level.byShort? · = some o) = true := by
    cases level <;> decide
  simpa [hc] using hall o h

theorem byLong?_eq_some_iff {name : String} :
    level.byLong? name = some o ↔ o ∈ level.options ∧ o.long = name := by
  constructor
  · intro h
    exact ⟨List.mem_of_find?_eq_some h, by simpa using List.find?_some h⟩
  · rintro ⟨h, rfl⟩
    exact byLong?_of_mem h

theorem byShort?_eq_some_iff :
    level.byShort? c = some o ↔ o ∈ level.options ∧ o.short = some c := by
  constructor
  · intro h
    exact ⟨List.mem_of_find?_eq_some h, by simpa using List.find?_some h⟩
  · rintro ⟨h, hc⟩
    exact byShort?_of_mem h hc

/-- No name is empty or goes on where it should end. -/
theorem isName_of_mem (h : o ∈ level.options) :
    o.long.toList ≠ [] ∧ '=' ∉ o.long.toList ∧ o.short ≠ some '-' := by
  revert o
  cases level <;> decide

theorem flagUse_of_isFlag (h : level.IsFlag o) : flagUse o = .inl { id := o.id } := by
  rw [flagUse]
  split
  · next hid => exact absurd hid h.goesOn.1
  · next hid => exact absurd hid h.goesOn.2
  · rfl

/-! ## Shapes of arguments -/

theorem argumentShape_eq_word_iff {argument : String} :
    argumentShape argument = .word ↔ IsPlainArgument argument := by
  have hdash : argument = "-" ↔ argument.toList = ['-'] := String.toList_inj.symm
  rw [argumentShape, IsPlainArgument, hdash]
  split
  · next h => simp [h]
  · next h => simp [h]
  · next h => simp [h]
  · next hescape hlong hshort =>
      refine iff_of_true rfl ?_
      cases hargument : argument.toList with
      | nil => exact .inr nofun
      | cons d more =>
          by_cases hd : d = '-'
          · subst hd
            cases more with
            | nil => exact .inl rfl
            | cons e more => exact absurd hargument (hshort e more)
          · exact .inr fun heq => hd (Option.some.inj heq)

theorem all_ne_equals (hname : '=' ∉ name) : ∀ c ∈ name, (c != '=') = true :=
  fun _ hc => bne_iff_ne.mpr fun heq => hname (heq ▸ hc)

theorem splitAtEquals_name (hname : '=' ∉ name) :
    splitAtEquals name = (String.ofList name, none) := by
  rw [splitAtEquals, List.dropWhile_eq_nil_iff.mpr (all_ne_equals hname)]

theorem splitAtEquals_name_equals (hname : '=' ∉ name) (value : List Char) :
    splitAtEquals (name ++ '=' :: value) = (String.ofList name, some (String.ofList value)) := by
  rw [splitAtEquals, List.dropWhile_append_of_pos (all_ne_equals hname),
    List.takeWhile_append_of_pos (all_ne_equals hname)]
  simp

theorem argumentShape_long {letters : List Char} (h : letters ≠ []) :
    argumentShape (String.ofList ('-' :: '-' :: letters)) =
      .long (splitAtEquals letters).1 (splitAtEquals letters).2 := by
  obtain ⟨c, letters, rfl⟩ := List.exists_cons_of_ne_nil h
  rw [argumentShape, String.toList_ofList]
  rfl

theorem argumentShape_short {letters : List Char} (hne : letters ≠ [])
    (hdash : letters.head? ≠ some '-') :
    argumentShape (String.ofList ('-' :: letters)) = .short letters := by
  obtain ⟨c, letters, rfl⟩ := List.exists_cons_of_ne_nil hne
  rw [argumentShape, String.toList_ofList]
  split
  · next h => cases h; exact absurd rfl hdash
  · next h => cases h; exact absurd rfl hdash
  · next h => cases h; rfl
  · next _ _ hshort => exact absurd rfl (hshort c letters)

/-! ## Scanning groups -/

theorem AreFlags.scanShort (h : level.AreFlags cs uses) (letters : List Char) :
    level.scanShort (cs ++ letters) =
      (uses ++ (level.scanShort letters).1, (level.scanShort letters).2) := by
  induction h with
  | nil => rfl
  | cons ho hc hrest ih =>
      rw [List.cons_append, CommandLevel.scanShort, byShort?_of_mem ho.mem hc]
      simp only [ho.noValue, flagUse_of_isFlag ho, ih]
      rfl

/-- No letter of an option is a dash. -/
theorem AreFlags.head?_ne_dash {more : List Char} (h : level.AreFlags cs uses)
    (hmore : more.head? ≠ some '-') : (cs ++ more).head? ≠ some '-' := by
  cases h with
  | nil => exact hmore
  | cons ho hc hrest => exact fun heq => (isName_of_mem ho.mem).2.2 (hc.trans heq)

/-- What an argument is when no option waits for a value. -/
theorem scan_cons (argument : String) (rest : List String) :
    level.scan slot none (argument :: rest) =
      match argumentShape argument with
      | .escape => level.scanValues slot rest
      | .long name value =>
        match level.byLong? name with
        | none => .ended (.stopped .unknownArgument false)
        | some o =>
          if o.takesValue then
            match value with
            | some value => .cons { id := o.id, value := some value } (level.scan slot none rest)
            | none => level.scan slot (some o) rest
          else if value.isSome then .ended (.stopped .tooManyValues false)
          else
            match flagUse o with
            | .inr e => .ended (.stopped e true)
            | .inl use => .cons use (level.scan slot none rest)
      | .short letters =>
        match level.scanShort letters with
        | (found, .closed) => (level.scan slot none rest).behind found
        | (found, .waiting o) => (level.scan slot (some o) rest).behind found
        | (found, .stopped e settles) => ⟨found, .stopped e settles⟩
      | .word =>
        if level.isSubcommand argument then .ended (.subcommand argument rest)
        else
          match slot with
          | none => .ended (.stopped (level.wordFault false argument) false)
          | some id =>
            .cons { id, value := some argument, isOpen := true } (level.scan none none rest) := by
  rw [scan.eq_def]
  rfl

/-- Letters behind a dash are scanned on their own. -/
theorem scan_letters {more : List Char} (h : level.AreFlags cs uses) (hne : cs ++ more ≠ [])
    (hdash : (cs ++ more).head? ≠ some '-') (rest : List String) :
    level.scan slot none (String.ofList ('-' :: (cs ++ more)) :: rest) =
      match level.scanShort more with
      | (found, .closed) => (level.scan slot none rest).behind (uses ++ found)
      | (found, .waiting o) => (level.scan slot (some o) rest).behind (uses ++ found)
      | (found, .stopped e settles) => ⟨uses ++ found, .stopped e settles⟩ := by
  rw [scan_cons, argumentShape_short hne hdash]
  simp only [h.scanShort]
  rcases level.scanShort more with ⟨found, _ | _ | _⟩ <;> rfl

/-- Letters behind a dash, up to one that is known. -/
theorem scan_letter (h : level.AreFlags cs uses) (ho : o ∈ level.options) (hc : o.short = some c)
    (more : List Char) (rest : List String) :
    level.scan slot none (String.ofList ('-' :: (cs ++ c :: more)) :: rest) =
      match level.scanShort (c :: more) with
      | (found, .closed) => (level.scan slot none rest).behind (uses ++ found)
      | (found, .waiting o) => (level.scan slot (some o) rest).behind (uses ++ found)
      | (found, .stopped e settles) => ⟨uses ++ found, .stopped e settles⟩ :=
  scan_letters h (List.append_ne_nil_of_right_ne_nil _ (List.cons_ne_nil _ _))
    (h.head?_ne_dash fun heq => (isName_of_mem ho).2.2 (hc.trans heq)) rest

theorem scan_long (ho : o ∈ level.options) (rest : List String) :
    level.scan slot none (String.ofList ('-' :: '-' :: o.long.toList) :: rest) =
      if o.takesValue then level.scan slot (some o) rest
      else
        match flagUse o with
        | .inr e => .ended (.stopped e true)
        | .inl use => .cons use (level.scan slot none rest) := by
  obtain ⟨hne, hequals, -⟩ := isName_of_mem ho
  rw [scan_cons, argumentShape_long hne, splitAtEquals_name hequals]
  simp only [String.ofList_toList, byLong?_of_mem ho]
  rfl

theorem scan_long_equals (ho : o ∈ level.options) (htakes : o.takesValue = true)
    (value : List Char) (rest : List String) :
    level.scan slot none (String.ofList ('-' :: '-' :: (o.long.toList ++ '=' :: value)) :: rest) =
      .cons { id := o.id, value := some (String.ofList value) } (level.scan slot none rest) := by
  obtain ⟨hne, hequals, -⟩ := isName_of_mem ho
  rw [scan_cons, argumentShape_long (List.append_ne_nil_of_left_ne_nil hne _),
    splitAtEquals_name_equals hequals]
  simp only [String.ofList_toList, byLong?_of_mem ho, htakes, if_true]

/-- The letter of an option with a value takes all that follows it. -/
theorem scanShort_takesValue (ho : o ∈ level.options) (hc : o.short = some c)
    (htakes : o.takesValue = true) (letters : List Char) :
    level.scanShort (c :: letters) =
      match letters with
      | [] => ([], .waiting o)
      | '=' :: value => ([{ id := o.id, value := some (String.ofList value) }], .closed)
      | value => ([{ id := o.id, value := some (String.ofList value) }], .closed) := by
  rw [CommandLevel.scanShort, byShort?_of_mem ho hc]
  exact if_pos htakes

theorem scanShort_attached (ho : o ∈ level.options) (hc : o.short = some c)
    (htakes : o.takesValue = true) (hvalue : value ≠ []) (hequals : value.head? ≠ some '=') :
    level.scanShort (c :: value) =
      ([{ id := o.id, value := some (String.ofList value) }], .closed) := by
  rw [scanShort_takesValue ho hc htakes]
  split
  · exact absurd rfl hvalue
  · exact absurd rfl hequals
  · rfl

theorem accepts_iff {argument : String} : accepts o (argumentShape argument) = true ↔
    o.value = .any ∨ IsPlainArgument argument := by
  rw [accepts, Bool.or_eq_true, decide_eq_true_iff, decide_eq_true_iff, argumentShape_eq_word_iff]

theorem scan_waiting (o : OptionSpec) (argument : String) (rest : List String) :
    level.scan slot (some o) (argument :: rest) =
      if accepts o (argumentShape argument) then
        .cons { id := o.id, value := some argument, isOpen := true } (level.scan slot none rest)
      else .cons { id := o.id, isOpen := true } (level.scan slot none (argument :: rest)) := by
  by_cases h : accepts o (argumentShape argument) = true
  · rw [if_pos h, scan.eq_def]
    simp only [Option.filter_some, if_pos h]
  · rw [if_neg h, scan.eq_def, scan_cons]
    simp only [Option.filter_some, if_neg h]
    rfl

theorem scan_group (h : level.IsGroup words uses) (rest : List String) :
    level.scan slot none (words ++ rest) = (level.scan slot none rest).behind uses := by
  cases h with
  | flag ho =>
      rw [List.singleton_append, scan_long ho.mem, ho.noValue, flagUse_of_isFlag ho]
      rfl
  | @letters cs uses hflags hne =>
      have hdash : (cs ++ []).head? ≠ some '-' := hflags.head?_ne_dash nofun
      rw [← List.append_nil cs] at hne ⊢
      rw [List.singleton_append, scan_letters hflags hne hdash]
      simp only [CommandLevel.scanShort, List.append_nil]
  | equals hname ho value =>
      rw [List.singleton_append]
      cases hname with
      | long hmem => exact scan_long_equals hmem ho value rest
      | short hflags hmem hc =>
          rw [List.cons_append, List.append_assoc, List.singleton_append,
            scan_letter hflags hmem hc, scanShort_takesValue hmem hc ho]
          rfl
  | attached hflags hmem hc ho hvalue hequals =>
      rw [List.singleton_append, scan_letter hflags hmem hc,
        scanShort_attached hmem hc ho hvalue hequals]
  | apart hname ho hvalue =>
      rw [List.cons_append, List.singleton_append]
      cases hname with
      | long hmem =>
          rw [scan_long hmem, if_pos ho, scan_waiting, if_pos (accepts_iff.mpr hvalue)]
          rfl
      | short hflags hmem hc =>
          rw [scan_letter hflags hmem hc, scanShort_takesValue hmem hc ho]
          simp only [scan_waiting, if_pos (accepts_iff.mpr hvalue), List.append_nil,
            Scan.behind_cons]

/-- What a group gives does not depend on the groups around it. -/
theorem scan_groups (groups : List (OptionGroup level)) (rest : List String) :
    level.scan slot none (groups.flatMap (·.words) ++ rest) =
      (level.scan slot none rest).behind (groups.flatMap (·.uses)) := by
  induction groups with
  | nil => rfl
  | cons g groups ih =>
      rw [List.flatMap_cons, List.append_assoc, scan_group g.isGroup, ih, Scan.behind_behind,
        List.flatMap_cons]

/-! ## Groups are all there is -/

/-- Whether an occurrence has a value if its option needs one. -/
def IsGiven (level : CommandLevel) (u : OptionUse) : Prop :=
  ∀ o ∈ level.options, o.takesValue = true → o.id = u.id → u.value ≠ none

/-- All flags that letters begin with. -/
theorem exists_flags (level : CommandLevel) (letters : List Char) :
    ∃ cs uses more, letters = cs ++ more ∧ level.AreFlags cs uses ∧
      ∀ c o, more.head? = some c → o.short = some c → ¬ level.IsFlag o := by
  induction letters with
  | nil => exact ⟨[], [], [], rfl, .nil, nofun⟩
  | cons c letters ih =>
      by_cases hflag : ∃ o, o.short = some c ∧ level.IsFlag o
      · obtain ⟨o, hc, ho⟩ := hflag
        obtain ⟨cs, uses, more, rfl, hflags, hmore⟩ := ih
        exact ⟨c :: cs, _, more, rfl, hflags.cons ho hc, hmore⟩
      · refine ⟨[], [], c :: letters, rfl, .nil, fun d o hd hc ho => hflag ⟨o, ?_, ho⟩⟩
        exact hc.trans hd.symm

theorem splitAtEquals_cases (letters : List Char) :
    (splitAtEquals letters).1.toList = letters ∧ (splitAtEquals letters).2 = none ∨
      ∃ value, letters = (splitAtEquals letters).1.toList ++ '=' :: value ∧
        (splitAtEquals letters).2 = some (String.ofList value) := by
  have hsplit := List.takeWhile_append_dropWhile (p := (· != '=')) (l := letters)
  rw [splitAtEquals]
  split
  · next hdrop => exact .inl ⟨String.toList_ofList, rfl⟩
  · next d value hdrop =>
      have hd := List.head?_dropWhile_not (· != '=') letters
      rw [hdrop] at hd hsplit
      obtain rfl : d = '=' := by simpa using hd
      exact .inr ⟨value, by rw [String.toList_ofList, hsplit], rfl⟩

/-- Two dashes alone, a word, a name behind two dashes, or letters behind one. -/
theorem argumentShape_cases (argument : String) :
    argument = "--" ∨ argumentShape argument = .word ∨
      (∃ letters, letters ≠ [] ∧ argument = String.ofList ('-' :: '-' :: letters)) ∨
      ∃ letters, letters ≠ [] ∧ letters.head? ≠ some '-' ∧
        argument = String.ofList ('-' :: letters) := by
  rw [argumentShape, ← String.toList_inj]
  split
  · next h => exact .inl h
  · next letters hdashes h =>
      exact .inr (.inr (.inl ⟨letters, hdashes, by rw [← h, String.ofList_toList]⟩))
  · next c letters hescape hlong h =>
      exact .inr (.inr (.inr ⟨c :: letters, List.cons_ne_nil _ _,
        fun hc => hlong (Option.some.inj hc), by rw [← h, String.ofList_toList]⟩))
  · exact .inr (.inl rfl)

/-- A scan that has a value for each option that needs one and does not stop. -/
structure IsComplete (level : CommandLevel) (s : Scan) : Prop where
  isGiven : ∀ u ∈ s.uses, level.IsGiven u
  goesOn : ∀ e settles, s.ending ≠ .stopped e settles

theorem IsComplete.of_behind {s : Scan} (h : level.IsComplete (s.behind uses)) :
    level.IsComplete s :=
  ⟨fun u hu => h.isGiven u (List.mem_append_right _ hu), h.goesOn⟩

theorem not_isComplete_stopped {e : UsageError} {settles : Bool} :
    ¬ level.IsComplete ⟨uses, .stopped e settles⟩ :=
  fun h => h.goesOn e settles rfl

/-- Arguments that begin with a group. -/
def StartsWithGroup (level : CommandLevel) (arguments : List String) : Prop :=
  ∃ (g : OptionGroup level) (rest : List String), arguments = g.words ++ rest

theorem IsGroup.starts (h : level.IsGroup words uses) (rest : List String) :
    level.StartsWithGroup (words ++ rest) :=
  ⟨⟨words, uses, h⟩, rest, rfl⟩

/-- An option that waits for a value and has one in the end was followed by it. -/
theorem starts_of_waiting (hname : level.IsNamed name uses o) (ho : o ∈ level.options)
    (htakes : o.takesValue = true) (h : level.IsComplete (level.scan none (some o) rest)) :
    level.StartsWithGroup (String.ofList name :: rest) := by
  cases rest with
  | nil => exact absurd rfl (h.isGiven _ List.mem_cons_self o ho htakes rfl)
  | cons value rest =>
      rw [scan_waiting] at h
      by_cases haccepts : accepts o (argumentShape value) = true
      · exact (IsGroup.apart hname htakes (accepts_iff.mp haccepts)).starts rest
      · rw [if_neg haccepts] at h
        exact absurd rfl (h.isGiven _ List.mem_cons_self o ho htakes rfl)

theorem isFlag_of_flagUse {use : OptionUse} (ho : o ∈ level.options)
    (htakes : o.takesValue = false) (h : flagUse o = .inl use) : level.IsFlag o := by
  refine ⟨ho, htakes, ?_⟩
  rw [flagUse] at h
  split at h
  · cases h
  · cases h
  · next hhelp hversion => exact ⟨hhelp, hversion⟩

/-- Two dashes in front, and the name of an option. -/
theorem starts_long {letters : List Char} (hne : letters ≠ [])
    (h : level.IsComplete
      (level.scan none none (String.ofList ('-' :: '-' :: letters) :: rest))) :
    level.StartsWithGroup (String.ofList ('-' :: '-' :: letters) :: rest) := by
  rw [scan_cons, argumentShape_long hne] at h
  cases hfound : level.byLong? (splitAtEquals letters).1 with
  | none =>
      simp only [hfound] at h
      exact absurd h not_isComplete_stopped
  | some o =>
      simp only [hfound] at h
      obtain ⟨ho, hlong⟩ := byLong?_eq_some_iff.mp hfound
      rcases splitAtEquals_cases letters with ⟨hname, hnone⟩ | ⟨value, hname, hvalue⟩
      · rw [← hlong] at hname
        rw [hnone] at h
        subst hname
        split at h
        · next htakes => exact starts_of_waiting (.long ho) ho htakes h
        · next htakes =>
            cases huse : flagUse o with
            | inr e =>
                rw [huse] at h
                exact absurd h not_isComplete_stopped
            | inl use =>
                have hflag := isFlag_of_flagUse ho (Bool.eq_false_iff.mpr htakes) huse
                exact (IsGroup.flag hflag).starts rest
      · rw [← hlong] at hname
        rw [hvalue] at h
        subst hname
        split at h
        · next htakes => exact (IsGroup.equals (.long ho) htakes value).starts rest
        · exact absurd h not_isComplete_stopped

/-- A dash in front, and letters of options. -/
theorem starts_short {letters : List Char} (hne : letters ≠ []) (hdash : letters.head? ≠ some '-')
    (h : level.IsComplete (level.scan none none (String.ofList ('-' :: letters) :: rest))) :
    level.StartsWithGroup (String.ofList ('-' :: letters) :: rest) := by
  obtain ⟨cs, uses, more, rfl, hflags, hmore⟩ := level.exists_flags letters
  rw [scan_letters hflags hne hdash] at h
  cases more with
  | nil =>
      rw [List.append_nil] at hne ⊢
      exact (IsGroup.letters hflags hne).starts rest
  | cons c more =>
      cases hfound : level.byShort? c with
      | none =>
          rw [scanShort, hfound] at h
          exact absurd h not_isComplete_stopped
      | some o =>
          obtain ⟨ho, hc⟩ := byShort?_eq_some_iff.mp hfound
          by_cases htakes : o.takesValue = true
          · cases more with
            | nil =>
                rw [scanShort_takesValue ho hc htakes] at h
                exact starts_of_waiting (.short hflags ho hc) ho htakes h.of_behind
            | cons d value =>
                by_cases hd : d = '='
                · subst hd
                  have hgroup := (IsGroup.equals (.short hflags ho hc) htakes value).starts rest
                  rwa [List.singleton_append, List.cons_append, List.append_assoc] at hgroup
                · exact (IsGroup.attached hflags ho hc htakes (List.cons_ne_nil d value)
                    fun heq => hd (Option.some.inj heq)).starts rest
          · cases huse : flagUse o with
            | inr e =>
                rw [scanShort, hfound] at h
                simp only [htakes, huse] at h
                exact absurd h not_isComplete_stopped
            | inl use =>
                exact absurd (isFlag_of_flagUse ho (Bool.eq_false_iff.mpr htakes) huse)
                  (hmore c o rfl hc)

/-- Complete arguments begin with a group, unless there is nothing left of them. -/
theorem starts_of_isComplete {arguments : List String}
    (h : level.IsComplete (level.scan none none arguments)) :
    level.StartsWithGroup arguments ∨
      ((level.scan none none arguments).ending = .finished ∧
        (arguments = [] ∨ arguments = ["--"])) ∨
      ∃ name rest, (level.scan none none arguments).ending = .subcommand name rest ∧
        arguments = name :: rest := by
  cases arguments with
  | nil => exact .inr (.inl ⟨rfl, .inl rfl⟩)
  | cons argument rest =>
      rcases argumentShape_cases argument with
        rfl | hword | ⟨letters, hne, rfl⟩ | ⟨letters, hne, hdash, rfl⟩
      · cases rest with
        | nil => exact .inr (.inl ⟨rfl, .inr rfl⟩)
        | cons value rest => exact absurd h not_isComplete_stopped
      · rw [scan_cons, hword] at h ⊢
        by_cases hname : level.isSubcommand argument = true
        · simp only [if_pos hname]
          exact .inr (.inr ⟨argument, rest, rfl, rfl⟩)
        · simp only [if_neg hname] at h
          exact absurd h not_isComplete_stopped
      · exact .inl (starts_long hne h)
      · exact .inl (starts_short hne hdash h)

theorem IsGroup.words_ne_nil (h : level.IsGroup words uses) : words ≠ [] := by
  cases h <;> exact List.cons_ne_nil _ _

/-- **Complete arguments are groups**, up to their end or to a subcommand. Behind the last group
there may be two dashes. -/
theorem exists_groups (arguments : List String)
    (h : level.IsComplete (level.scan none none arguments)) :
    ∃ (groups : List (OptionGroup level)) (last : List String),
      arguments = groups.flatMap (·.words) ++ last ∧
      (((level.scan none none arguments).ending = .finished ∧ (last = [] ∨ last = ["--"])) ∨
        ∃ name rest, (level.scan none none arguments).ending = .subcommand name rest ∧
          last = name :: rest) := by
  rcases starts_of_isComplete h with ⟨g, rest, rfl⟩ | hlast
  · rw [scan_group g.isGroup] at h ⊢
    have hshorter : rest.length < (g.words ++ rest).length := by
      have hpos := List.length_pos_iff.mpr g.isGroup.words_ne_nil
      rw [List.length_append]
      omega
    obtain ⟨groups, last, hrest, hend⟩ := exists_groups rest h.of_behind
    exact ⟨g :: groups, last, by rw [List.flatMap_cons, List.append_assoc, ← hrest], hend⟩
  · exact ⟨[], arguments, rfl, hlast⟩
termination_by arguments.length

end CommandLevel

end RaceSkeletons
