import QueryCriteria.Proofs.Outcome
import QueryCriteria.Proofs.Prefix
import QueryCriteria.Settings
/-!
# The grammar of settings

The texts that give a strategy and a depth: within white space, one of four words in letters of
either case, and a number of at most 255 behind an optional plus sign. An environment gives settings
exactly when each of its two variables is not set or has such a text, and otherwise the first
variable that is wrong is reported (`readsSettings`).
-/

namespace QueryCriteria

/-! ## White space around a text -/

/-- A text has a core within white space. -/
structure Text.Trimmed (text core : List Char) : Prop where
  within : ∃ before after, text = before ++ core ++ after ∧
    (∀ c ∈ before, isWhite c = true) ∧ ∀ c ∈ after, isWhite c = true
  first : Stops isWhite core
  last : Stops isWhite core.reverse

namespace Text

theorem trimChars_append {before core after : List Char} (hbefore : ∀ c ∈ before, isWhite c = true)
    (hafter : ∀ c ∈ after, isWhite c = true) (hfirst : Stops isWhite core)
    (hlast : Stops isWhite core.reverse) : trimChars (before ++ core ++ after) = core := by
  cases core with
  | nil =>
    rw [trimChars_eq_nil_iff, List.all_eq_true]
    simpa [or_imp, forall_and] using ⟨hbefore, hafter⟩
  | cons c core =>
    have hrest : Stops isWhite (c :: core ++ after) := stops_cons.2 (stops_cons.1 hfirst)
    rw [trimChars, List.append_assoc, dropWhile_append_of_stops hbefore hrest,
      List.reverse_append, dropWhile_append_of_stops (by simpa using hafter) hlast,
      List.reverse_reverse]

theorem trimmed_trimChars (text : List Char) : Trimmed text (trimChars text) := by
  have hwhite (cs : List Char) : ∀ c ∈ cs.takeWhile isWhite, isWhite c = true :=
    List.all_eq_true.1 List.all_takeWhile
  obtain ⟨after, hafter, hsplit⟩ : ∃ after, (∀ c ∈ after, isWhite c = true) ∧
      trimChars text ++ after = text.dropWhile isWhite := by
    refine ⟨((text.dropWhile isWhite).reverse.takeWhile isWhite).reverse, ?_, ?_⟩
    · simpa using hwhite (text.dropWhile isWhite).reverse
    · rw [trimChars, ← List.reverse_append, List.takeWhile_append_dropWhile, List.reverse_reverse]
  refine ⟨⟨text.takeWhile isWhite, after, ?_, hwhite text, hafter⟩, ?_, ?_⟩
  · rw [List.append_assoc, hsplit, List.takeWhile_append_dropWhile]
  · -- The core begins as the text does behind the white space in front.
    have hfirst := stops_dropWhile isWhite text
    rw [← hsplit] at hfirst
    intro c hc
    exact hfirst c (by simp [Option.mem_def.1 hc])
  · rw [trimChars, List.reverse_reverse]
    exact stops_dropWhile isWhite _

/-- Trimming finds the core of a text, which has only one. -/
theorem trimmed_iff {text core : List Char} : Trimmed text core ↔ trimChars text = core := by
  constructor
  · rintro ⟨⟨before, after, rfl, hbefore, hafter⟩, hfirst, hlast⟩
    exact trimChars_append hbefore hafter hfirst hlast
  · rintro rfl
    exact trimmed_trimChars text

end Text

/-! ## Strategies -/

namespace FetchStrategy

/-- The words for strategies, in small letters. -/
inductive HasWord : FetchStrategy → String → Prop
  | joinFetch : HasWord .joinFetch "join_fetch"
  | fetchHints : HasWord .fetchHints "fetch_hints"
  | disabled : HasWord .disabled "disabled"
  | none : HasWord .disabled "none"

/-- The core of a text is a word for a strategy, but for the case of its letters. -/
def Says (core : List Char) (s : FetchStrategy) : Prop :=
  ∃ word, s.HasWord word ∧ core.map Char.toLower = word.toList

/-- What a text says is told by its core in small letters. -/
theorem says_iff {text : String} {s : FetchStrategy} :
    Says (Text.trimChars text.toList) s ↔ s.HasWord (Text.lowerAscii (Text.trim text)) := by
  constructor
  · rintro ⟨word, hword, hcore⟩
    have hlower : Text.lowerAscii (Text.trim text) = word := by
      rw [← String.toList_inj, Text.toList_lowerAscii, Text.toList_trim, hcore]
    rwa [hlower]
  · exact fun h => ⟨_, h, by rw [Text.toList_lowerAscii, Text.toList_trim]⟩

theorem read_of_hasWord {s : FetchStrategy} {text : String}
    (h : s.HasWord (Text.lowerAscii (Text.trim text))) : read text = .ok s := by
  unfold read
  generalize Text.lowerAscii (Text.trim text) = word at h
  cases h <;> rfl

theorem read_cases (text : String) : (∃ s, read text = .ok s ∧
      s.HasWord (Text.lowerAscii (Text.trim text))) ∨
    read text = .error (.unknownStrategy (Text.lowerAscii (Text.trim text))) := by
  unfold read
  generalize Text.lowerAscii (Text.trim text) = word
  split
  · exact .inl ⟨_, rfl, .joinFetch⟩
  · exact .inl ⟨_, rfl, .fetchHints⟩
  · exact .inl ⟨_, rfl, .disabled⟩
  · exact .inl ⟨_, rfl, .none⟩
  · exact .inr rfl

/-- A strategy is read exactly from what means it. -/
theorem read_eq_ok_iff {text : String} {s : FetchStrategy} :
    read text = .ok s ↔ Says (Text.trimChars text.toList) s := by
  refine ⟨fun h => ?_, fun h => read_of_hasWord (says_iff.1 h)⟩
  rcases read_cases text with ⟨s', hread, hword⟩ | hread
  · obtain rfl := Except.ok.inj (h.symm.trans hread)
    exact says_iff.2 hword
  · cases h.symm.trans hread

theorem read_eq_error_iff {text : String} {fault : Fault} :
    read text = .error fault ↔ (¬ ∃ s, Says (Text.trimChars text.toList) s) ∧
      fault = .unknownStrategy (Text.lowerAscii (Text.trim text)) := by
  rcases read_cases text with ⟨s, hread, hword⟩ | hread
  · rw [hread]
    exact ⟨nofun, fun h => absurd ⟨s, says_iff.2 hword⟩ h.1⟩
  · simp only [← read_eq_ok_iff, hread, Except.error.injEq, reduceCtorEq, exists_false,
      not_false_eq_true, true_and, eq_comm]

end FetchStrategy

/-! ## Depths -/

namespace Settings

/-- What a number has behind its plus sign, and all of it when it has none. -/
def unsigned : List Char → List Char
  | '+' :: cs => cs
  | cs => cs

/-- The core of a text is a depth in decimal digits, zeros in front allowed. -/
structure SaysDepth (core : List Char) (depth : Nat) : Prop where
  nonempty : unsigned core ≠ []
  digits : ∀ c ∈ unsigned core, c.isDigit = true
  value : Nat.ofDigitChars 10 (unsigned core) 0 = depth
  fits : depth ≤ 255

/-- The core of a text begins with digits that make too large a number, whatever follows. -/
def Overflows (core : List Char) : Prop := ∃ digits, digits <+: unsigned core ∧
  (∀ c ∈ digits, c.isDigit = true) ∧ 255 < Nat.ofDigitChars 10 digits 0

/-- Why the core of a text is no depth. -/
def Refuses (core : List Char) : DepthFault → Prop
  | .empty => core = []
  | .tooLarge => Overflows core
  | .invalidDigit => core ≠ [] ∧ ¬ Overflows core ∧ ¬ ∃ depth, SaysDepth core depth

theorem readDigits_cons (value : Nat) (c : Char) (cs : List Char) : readDigits value (c :: cs) =
    if c.isDigit then
      if 10 * value + (c.toNat - '0'.toNat) < 256 then
        readDigits (10 * value + (c.toNat - '0'.toNat)) cs
      else .error .tooLarge
    else .error .invalidDigit := rfl

/-- All that is read is a digit, and the digits make the depth. -/
theorem readDigits_eq_ok_iff {value : Nat} (hvalue : value ≤ 255) {cs : List Char} {n : UInt8} :
    readDigits value cs = .ok n ↔
      (∀ c ∈ cs, c.isDigit = true) ∧ Nat.ofDigitChars 10 cs value = n.toNat := by
  induction cs generalizing value with
  | nil =>
    have hnat : (UInt8.ofNat value).toNat = value :=
      UInt8.toNat_ofNat_of_lt' (Nat.lt_of_le_of_lt hvalue (by decide))
    rw [readDigits, Except.ok.injEq, ← UInt8.toNat_inj, hnat]
    simp
  | cons c cs ih =>
    rw [readDigits_cons, List.forall_mem_cons, Nat.ofDigitChars_cons]
    split
    · next hdigit =>
      split
      · next hlt => rw [ih (by omega), and_iff_right hdigit]
      · next hge =>
        -- Further digits do not make the number smaller again.
        have hle := le_ofDigitChars cs (10 * value + (c.toNat - '0'.toNat))
        have hn := n.toNat_lt
        simp only [reduceCtorEq, false_iff, not_and]
        omega
    · next hdigit => simp [hdigit]

/-- The number becomes too large before a character that is no digit is met. -/
theorem readDigits_eq_tooLarge_iff {value : Nat} (hvalue : value ≤ 255) {cs : List Char} :
    readDigits value cs = .error .tooLarge ↔ ∃ digits, digits <+: cs ∧
      (∀ c ∈ digits, c.isDigit = true) ∧ 255 < Nat.ofDigitChars 10 digits value := by
  induction cs generalizing value with
  | nil => simpa [readDigits] using hvalue
  | cons c cs ih =>
    -- Digits that make too large a number begin with `c`, since none of them make `value`.
    have hcons : (∃ digits, digits <+: c :: cs ∧ (∀ c ∈ digits, c.isDigit = true) ∧
          255 < Nat.ofDigitChars 10 digits value) ↔ c.isDigit = true ∧ ∃ digits, digits <+: cs ∧
        (∀ c ∈ digits, c.isDigit = true) ∧
          255 < Nat.ofDigitChars 10 digits (10 * value + (c.toNat - '0'.toNat)) := by
      constructor
      · rintro ⟨digits, hprefix, hdigits, hlarge⟩
        rcases List.prefix_cons_iff.1 hprefix with rfl | ⟨digits, rfl, hrest⟩
        · exact absurd hlarge (by simpa using hvalue)
        · rw [List.forall_mem_cons] at hdigits
          exact ⟨hdigits.1, digits, hrest, hdigits.2, by rwa [Nat.ofDigitChars_cons] at hlarge⟩
      · rintro ⟨hdigit, digits, hprefix, hdigits, hlarge⟩
        exact ⟨c :: digits, (List.prefix_cons_inj c).2 hprefix,
          List.forall_mem_cons.2 ⟨hdigit, hdigits⟩, by rwa [Nat.ofDigitChars_cons]⟩
    rw [hcons, readDigits_cons]
    split
    · next hdigit =>
      split
      · next hlt => rw [ih (by omega), and_iff_right hdigit]
      · next hge =>
        exact ⟨fun _ => ⟨hdigit, [], List.nil_prefix, nofun, Nat.le_of_not_lt hge⟩, fun _ => rfl⟩
    · next hdigit => simp [hdigit]

theorem readDigits_ne_empty (value : Nat) (cs : List Char) :
    readDigits value cs ≠ .error .empty := by
  induction cs generalizing value with
  | nil => simp [readDigits]
  | cons c cs ih =>
    rw [readDigits_cons]
    split
    · split
      · exact ih _
      · simp
    · simp

/-- The digits of a depth are read behind its plus sign, when there are any. -/
theorem readDepth_eq (text : String) : readDepth text =
    if Text.trimChars text.toList = [] then .error .empty
    else if unsigned (Text.trimChars text.toList) = [] then .error .invalidDigit
    else readDigits 0 (unsigned (Text.trimChars text.toList)) := by
  unfold readDepth
  split
  · next h => simp [h]
  · next h => simp [h, unsigned]
  · next digits hne h =>
    have hdigits : digits ≠ [] := hne
    simp [h, unsigned, hdigits]
  · next hnil _ hplus =>
    have hunsigned : unsigned (Text.trimChars text.toList) = Text.trimChars text.toList :=
      unsigned.eq_2 _ hplus
    rw [hunsigned, if_neg hnil, if_neg hnil]

/-- A depth is read exactly from what means it. -/
theorem readDepth_eq_ok_iff {text : String} {n : UInt8} :
    readDepth text = .ok n ↔ SaysDepth (Text.trimChars text.toList) n.toNat := by
  rw [readDepth_eq]
  split
  · next hcore =>
    refine ⟨nofun, fun h => absurd ?_ h.nonempty⟩
    rw [hcore]
    rfl
  · split
    · next hunsigned => exact ⟨nofun, fun h => absurd hunsigned h.nonempty⟩
    · next hunsigned =>
      rw [readDigits_eq_ok_iff (by decide)]
      exact ⟨fun h => ⟨hunsigned, h.1, h.2, Nat.le_of_lt_succ n.toNat_lt⟩, fun h => ⟨h.digits, h.value⟩⟩

theorem exists_readDepth_iff {text : String} :
    (∃ n, readDepth text = .ok n) ↔ ∃ depth, SaysDepth (Text.trimChars text.toList) depth := by
  constructor
  · rintro ⟨n, h⟩
    exact ⟨n.toNat, readDepth_eq_ok_iff.1 h⟩
  · rintro ⟨depth, h⟩
    have hdepth : (UInt8.ofNat depth).toNat = depth := by
      rw [UInt8.toNat_ofNat']
      exact Nat.mod_eq_of_lt (Nat.lt_succ_of_le h.fits)
    exact ⟨UInt8.ofNat depth, readDepth_eq_ok_iff.2 (hdepth.symm ▸ h)⟩

theorem readDepth_eq_empty_iff {text : String} :
    readDepth text = .error .empty ↔ Text.trimChars text.toList = [] := by
  rw [readDepth_eq]
  split
  · next hcore => simp [hcore]
  · next hcore =>
    split
    · simp [hcore]
    · simp [hcore, readDigits_ne_empty]

theorem readDepth_eq_tooLarge_iff {text : String} :
    readDepth text = .error .tooLarge ↔ Overflows (Text.trimChars text.toList) := by
  have hnil (core : List Char) (h : unsigned core = []) : ¬ Overflows core := by
    rintro ⟨digits, hprefix, -, hlarge⟩
    rw [h, List.prefix_nil] at hprefix
    subst hprefix
    exact absurd hlarge (by decide)
  rw [readDepth_eq]
  split
  · next hcore => simp [hnil _ (congrArg unsigned hcore)]
  · split
    · next hunsigned => simp [hnil _ hunsigned]
    · exact readDigits_eq_tooLarge_iff (by decide)

/-- A text from which no depth is read is refused for what is wrong with it. -/
theorem readDepth_eq_error_iff {text : String} {cause : DepthFault} :
    readDepth text = .error cause ↔ Refuses (Text.trimChars text.toList) cause := by
  cases cause with
  | empty => exact readDepth_eq_empty_iff
  | tooLarge => exact readDepth_eq_tooLarge_iff
  | invalidDigit =>
    rw [Refuses, ne_eq, ← readDepth_eq_empty_iff, ← readDepth_eq_tooLarge_iff,
      ← exists_readDepth_iff]
    cases readDepth text with
    | ok n => simp
    | error cause => cases cause <;> simp

/-! ## Environments -/

/-- What a variable gives: the default when it is not set, and what its text means within white
space when it is. -/
inductive Gives {α : Type} (means : List Char → α → Prop) (default : α) : Option String → α → Prop
  | unset : Gives means default none default
  | set {text : String} {core : List Char} {a : α} (htrim : Text.Trimmed text.toList core)
    (hmeans : means core a) : Gives means default (some text) a

variable {α : Type} {means : List Char → α → Prop} {default a : α} {text : String}

theorem gives_none : Gives means default none a ↔ a = default := by
  constructor
  · rintro ⟨⟩
    rfl
  · rintro rfl
    exact .unset

theorem gives_some : Gives means default (some text) a ↔ means (Text.trimChars text.toList) a := by
  constructor
  · rintro (_ | ⟨htrim, hmeans⟩)
    rwa [Text.trimmed_iff.1 htrim]
  · exact .set (Text.trimmed_trimChars _)

variable {lookup : String → Option String}

theorem strategyOf_eq_ok_iff {s : FetchStrategy} : strategyOf lookup = .ok s ↔
    Gives FetchStrategy.Says .joinFetch (lookup strategyVariable) s := by
  unfold strategyOf
  cases lookup strategyVariable with
  | none => rw [gives_none, Except.ok.injEq, eq_comm]
  | some text => rw [gives_some, ← FetchStrategy.read_eq_ok_iff, mapError_eq_ok_iff]

theorem strategyOf_eq_error_iff {fault : Fault} : strategyOf lookup = .error fault ↔
    ∃ text, lookup strategyVariable = some text ∧
      (¬ ∃ s, Gives FetchStrategy.Says .joinFetch (some text) s) ∧
      fault = .strategy text (.unknownStrategy (Text.lowerAscii (Text.trim text))) := by
  unfold strategyOf
  cases lookup strategyVariable with
  | none => simp
  | some text =>
    simp only [mapError_eq_error_iff, FetchStrategy.read_eq_error_iff, gives_some,
      Option.some.injEq]
    constructor
    · rintro ⟨cause, ⟨hnone, rfl⟩, rfl⟩
      exact ⟨text, rfl, hnone, rfl⟩
    · rintro ⟨text, rfl, hnone, rfl⟩
      exact ⟨_, ⟨hnone, rfl⟩, rfl⟩

theorem depthOf_eq_ok_iff {n : UInt8} : depthOf lookup = .ok n ↔
    Gives SaysDepth 3 (lookup depthVariable) n.toNat := by
  unfold depthOf
  cases lookup depthVariable with
  | none =>
    rw [gives_none, Except.ok.injEq, ← UInt8.toNat_inj, eq_comm]
    rfl
  | some text => rw [gives_some, ← readDepth_eq_ok_iff, mapError_eq_ok_iff]

theorem exists_depthOf_iff : (∃ n, depthOf lookup = .ok n) ↔
    ∃ depth, Gives SaysDepth 3 (lookup depthVariable) depth := by
  unfold depthOf
  cases lookup depthVariable with
  | none => exact ⟨fun _ => ⟨3, .unset⟩, fun _ => ⟨_, rfl⟩⟩
  | some text => simp only [gives_some, mapError_eq_ok_iff, exists_readDepth_iff]

theorem depthOf_eq_error_iff {fault : Fault} : depthOf lookup = .error fault ↔
    ∃ text cause, lookup depthVariable = some text ∧
      (∃ core, Text.Trimmed text.toList core ∧ Refuses core cause) ∧ fault = .depth text cause := by
  unfold depthOf
  cases lookup depthVariable with
  | none => simp
  | some text =>
    simp only [mapError_eq_error_iff, readDepth_eq_error_iff, Text.trimmed_iff, exists_eq_left',
      Option.some.injEq]
    constructor
    · rintro ⟨cause, hrefuses, rfl⟩
      exact ⟨text, cause, rfl, hrefuses, rfl⟩
    · rintro ⟨text, cause, rfl, hrefuses, rfl⟩
      exact ⟨cause, hrefuses, rfl⟩

theorem ofEnvironment_eq_ok_iff {settings : Settings} : ofEnvironment lookup = .ok settings ↔
    strategyOf lookup = .ok settings.strategy ∧ depthOf lookup = .ok settings.maxDepth := by
  unfold ofEnvironment
  obtain ⟨strategy, maxDepth⟩ := settings
  cases strategyOf lookup with
  | error fault => exact ⟨nofun, nofun⟩
  | ok s =>
    cases depthOf lookup with
    | error fault => exact ⟨nofun, nofun⟩
    | ok n =>
      show Except.ok _ = _ ↔ _
      simp

/-- The depth is looked at only when the strategy is right. -/
theorem ofEnvironment_eq_error_iff {fault : Fault} : ofEnvironment lookup = .error fault ↔
    strategyOf lookup = .error fault ∨
      (∃ s, strategyOf lookup = .ok s) ∧ depthOf lookup = .error fault := by
  unfold ofEnvironment
  cases strategyOf lookup with
  | error fault' =>
    show Except.error fault' = _ ↔ _
    simp
  | ok s =>
    cases depthOf lookup with
    | error fault' =>
      show Except.error fault' = _ ↔ _
      simp
    | ok n => exact ⟨nofun, by simp⟩

/-- What an environment gives. -/
structure ReadsSettings (lookup : String → Option String) : Prop where
  /-- There are settings when each variable gives something. -/
  succeeds : (∃ settings, ofEnvironment lookup = .ok settings) ↔
    (∃ s, Gives FetchStrategy.Says .joinFetch (lookup "SIFT_FETCH_STRATEGY") s) ∧
      ∃ depth, Gives SaysDepth 3 (lookup "SIFT_MAX_FETCH_DEPTH") depth
  /-- The settings are what the variables give. -/
  settings : ∀ settings, ofEnvironment lookup = .ok settings ↔
    Gives FetchStrategy.Says .joinFetch (lookup "SIFT_FETCH_STRATEGY") settings.strategy ∧
      Gives SaysDepth 3 (lookup "SIFT_MAX_FETCH_DEPTH") settings.maxDepth.toNat
  /-- A wrong strategy is reported, whatever the depth. -/
  strategy : ∀ text cause, ofEnvironment lookup = .error (.strategy text cause) ↔
    lookup "SIFT_FETCH_STRATEGY" = some text ∧
      (¬ ∃ s, Gives FetchStrategy.Says .joinFetch (some text) s) ∧
      cause = .unknownStrategy (Text.lowerAscii (Text.trim text))
  /-- A wrong depth is reported when the strategy is right. -/
  depth : ∀ text cause, ofEnvironment lookup = .error (.depth text cause) ↔
    (∃ s, Gives FetchStrategy.Says .joinFetch (lookup "SIFT_FETCH_STRATEGY") s) ∧
      lookup "SIFT_MAX_FETCH_DEPTH" = some text ∧
      ∃ core, Text.Trimmed text.toList core ∧ Refuses core cause

/-- Every environment gives the settings that its variables say and the defaults of those that are
not set, or the fault of the first variable that means nothing. -/
theorem readsSettings (lookup : String → Option String) : ReadsSettings lookup where
  succeeds := by
    constructor
    · rintro ⟨settings, h⟩
      obtain ⟨hstrategy, hdepth⟩ := ofEnvironment_eq_ok_iff.1 h
      exact ⟨⟨_, strategyOf_eq_ok_iff.1 hstrategy⟩, exists_depthOf_iff.1 ⟨_, hdepth⟩⟩
    · rintro ⟨⟨s, hstrategy⟩, hdepth⟩
      obtain ⟨n, hn⟩ := exists_depthOf_iff.2 hdepth
      exact ⟨⟨s, n⟩, ofEnvironment_eq_ok_iff.2 ⟨strategyOf_eq_ok_iff.2 hstrategy, hn⟩⟩
  settings settings := by
    rw [ofEnvironment_eq_ok_iff, strategyOf_eq_ok_iff, depthOf_eq_ok_iff]
    rfl
  strategy text cause := by
    rw [ofEnvironment_eq_error_iff, strategyOf_eq_error_iff, depthOf_eq_error_iff]
    constructor
    · rintro (⟨text', htext, hnone, heq⟩ | ⟨-, text', cause', -, -, heq⟩)
      · cases heq
        exact ⟨htext, hnone, rfl⟩
      · cases heq
    · rintro ⟨htext, hnone, rfl⟩
      exact .inl ⟨text, htext, hnone, rfl⟩
  depth text cause := by
    simp only [ofEnvironment_eq_error_iff, strategyOf_eq_error_iff, depthOf_eq_error_iff,
      strategyOf_eq_ok_iff]
    constructor
    · rintro (⟨text', -, -, heq⟩ | ⟨hstrategy, text', cause', htext, hrefuses, heq⟩)
      · cases heq
      · cases heq
        exact ⟨hstrategy, htext, hrefuses⟩
    · rintro ⟨hstrategy, htext, hrefuses⟩
      exact .inr ⟨hstrategy, text, cause, htext, hrefuses, rfl⟩

/-- Zeros in front do not count, nor does white space of any kind. -/
example : readDepth "\u3000+000255\n" = .ok 255 := rfl

/-- Of a number that is too large and a character that is no digit, the first is reported. -/
example : readDepth "2560x" = .error .tooLarge ∧ readDepth "25x60" = .error .invalidDigit :=
  ⟨rfl, rfl⟩

end Settings

end QueryCriteria
