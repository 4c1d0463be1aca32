import Mathlib.Data.Option.Basic
import QueryCriteria.Json.Printer
import QueryCriteria.Json.Reader
import QueryCriteria.Proofs.Prefix
/-!
# Reading what has been written

The reader gives back every tree that the compact printer has written, as long as its numbers are
whole and its strings are texts (`read?_compact`). Each piece is read up to the character behind it,
which must not be one that could go on with it.
-/

namespace QueryCriteria.Json

/-! ## Strings -/

section
variable {c e : Char} (cs : List Char)

/-- A letter behind a backslash stands for a character. -/
theorem readPoints_short (h : shortEscape? e = some c) : readPoints ('\\' :: e :: cs) =
    (readPoints cs).map fun read => (c.toNat :: read.1, read.2) := by
  have hletter : e ≠ 'u' := by
    rintro rfl
    cases h
  rw [readPoints.eq_4 e cs fun _ _ _ _ _ hu _ => hletter hu, h]
  cases readPoints cs <;> rfl

/-- A character that needs no escape stands for itself. -/
theorem readPoints_plain (hquote : c ≠ '\x22') (hslash : c ≠ '\\') (hcontrol : 0x20 ≤ c.toNat) :
    readPoints (c :: cs) = (readPoints cs).map fun read => (c.toNat :: read.1, read.2) := by
  -- Neither the quote nor a backslash, so the reader comes to its last case.
  rw [readPoints.eq_5 c cs hquote (fun _ _ _ _ _ hc _ => hslash hc) fun _ _ hc _ => hslash hc]
  have hguard : (c != '\\' && decide (32 ≤ c.toNat)) = true := by simp [hslash, hcontrol]
  rw [hguard]
  cases readPoints cs <;> rfl

/-- A control is read from the four digits of its number. -/
theorem hexNumber?_digits :
    ∀ n < 32, hexNumber? ['0', '0', Nat.digitChar (n / 16), Nat.digitChar (n % 16)] = some n := by
  decide

/-- The characters that are escaped by a letter, each with its letter. -/
def shortEscapes : List (Char × Char) :=
  [('\x22', '\x22'), ('\\', '\\'), ('\x08', 'b'), ('\x0c', 'f'), ('\n', 'n'), ('\r', 'r'), ('\t', 't')]

theorem escapeChar_of_mem_shortEscapes :
    ∀ p ∈ shortEscapes, escapeChar p.1 = ['\\', p.2] ∧ shortEscape? p.2 = some p.1 := by
  decide

/-- A character is escaped by a letter, by its number, or not at all. -/
theorem escapeChar_cases (c : Char) :
    (∃ e, escapeChar c = ['\\', e] ∧ shortEscape? e = some c) ∨
      (c.toNat < 0x20 ∧ escapeChar c = escapeByNumber c) ∨
      (c ≠ '\x22' ∧ c ≠ '\\' ∧ 0x20 ≤ c.toNat ∧ escapeChar c = [c]) := by
  by_cases hshort : c ∈ shortEscapes.map Prod.fst
  · obtain ⟨p, hp, rfl⟩ := List.mem_map.1 hshort
    exact .inl ⟨p.2, escapeChar_of_mem_shortEscapes p hp⟩
  · obtain ⟨hquote, hslash, hb, hf, hn, hr, ht⟩ : c ≠ '\x22' ∧ c ≠ '\\' ∧ c ≠ '\x08' ∧
        c ≠ '\x0c' ∧ c ≠ '\n' ∧ c ≠ '\r' ∧ c ≠ '\t' := by
      simpa [shortEscapes] using hshort
    rw [escapeChar, if_neg hquote, if_neg hslash, if_neg hb, if_neg hf, if_neg hn, if_neg hr,
      if_neg ht]
    split
    · next hcontrol => exact .inr (.inl ⟨hcontrol, rfl⟩)
    · next hcontrol => exact .inr (.inr ⟨hquote, hslash, Nat.le_of_not_lt hcontrol, rfl⟩)

/-- However a character is escaped, its number is read. -/
theorem readPoints_escapeChar (c : Char) : readPoints (escapeChar c ++ cs) =
    (readPoints cs).map fun read => (c.toNat :: read.1, read.2) := by
  obtain ⟨e, hescape, hletter⟩ | ⟨hcontrol, hescape⟩ | ⟨hquote, hslash, hcontrol, hescape⟩ :=
    escapeChar_cases c
  · rw [hescape]
    exact readPoints_short cs hletter
  · rw [hescape]
    simp only [escapeByNumber, List.cons_append, List.nil_append]
    rw [readPoints, hexNumber?_digits c.toNat hcontrol]
    cases readPoints cs <;> rfl
  · rw [hescape]
    exact readPoints_plain cs hquote hslash hcontrol

theorem readPoints_flatMap_escapeChar (text : List Char) :
    readPoints (text.flatMap escapeChar ++ '\x22' :: cs) = some (text.map Char.toNat, cs) := by
  induction text with
  | nil => rfl
  | cons c text ih =>
    rw [List.flatMap_cons, List.append_assoc, readPoints_escapeChar, ih]
    rfl

/-- No character is half of a pair. -/
theorem not_isSurrogate (c : Char) :
    isHighSurrogate c.toNat = false ∧ isLowSurrogate c.toNat = false := by
  have hvalid : c.toNat < 0xd800 ∨ 0xdfff < c.toNat ∧ c.toNat < 0x110000 := c.valid
  constructor
  · simp only [isHighSurrogate, Bool.and_eq_false_iff, decide_eq_false_iff_not]
    omega
  · simp only [isLowSurrogate, Bool.and_eq_false_iff, decide_eq_false_iff_not]
    omega

theorem joinPairs_map_toNat (text : List Char) : joinPairs (text.map Char.toNat) = some text := by
  induction text with
  | nil => rfl
  | cons c text ih =>
    obtain ⟨hhigh, hlow⟩ := not_isSurrogate c
    cases text with
    | nil => simp [joinPairs, hhigh, hlow]
    | cons c' text =>
      simp only [List.map_cons] at ih ⊢
      rw [joinPairs]
      simp [hhigh, hlow, ih]

/-- A string is read up to its closing quote. -/
theorem readString_escaped (s : String) :
    readString (s.toList.flatMap escapeChar ++ '\x22' :: cs) = some (some s, cs) := by
  simp [readString, readPoints_flatMap_escapeChar, joinPairs_map_toNat]

end

/-! ## Whole numbers -/

/-- Nothing follows that could go on with a number. -/
def EndsNumber (cs : List Char) : Prop :=
  ∀ c ∈ cs.head?, c.isDigit = false ∧ c ≠ '.' ∧ c ≠ 'e' ∧ c ≠ 'E'

theorem head?_toDigits {n : Nat} (h : 0 < n) : (Nat.toDigits 10 n).head? ≠ some '0' := by
  induction n using Nat.strongRecOn with
  | ind n ih =>
    rw [Nat.toDigits_eq_if (by decide)]
    split
    · next hn =>
      have hdigit : ∀ n < 10, 0 < n → [n.digitChar].head? ≠ some '0' := by decide
      exact hdigit n hn h
    · next hn =>
      -- Several digits begin like those of the quotient by ten, which is not zero either.
      have hhead := ih (n / 10) (by omega) (by omega)
      cases hdigits : Nat.toDigits 10 (n / 10) with
      | nil => exact absurd hdigits Nat.toDigits_ne_nil
      | cons d ds => simpa [hdigits] using hhead

theorem exists_toDigits (n : Nat) :
    ∃ d ds, Nat.toDigits 10 n = d :: ds ∧ d.isDigit = true := by
  obtain ⟨d, ds, hdigits⟩ := List.exists_cons_of_ne_nil (Nat.toDigits_ne_nil (n := n) (b := 10))
  refine ⟨d, ds, hdigits, ?_⟩
  apply Nat.isDigit_of_mem_toDigits (b := 10) (n := n) (by decide) (by decide)
  simp [hdigits]

theorem spanDigits_toDigits (n : Nat) {cs : List Char} (h : EndsNumber cs) :
    spanDigits (Nat.toDigits 10 n ++ cs) = (Nat.toDigits 10 n, cs) := by
  have hdigits : ∀ c ∈ Nat.toDigits 10 n, c.isDigit = true :=
    fun c hc => Nat.isDigit_of_mem_toDigits (by decide) (by decide) hc
  have hstops : Stops Char.isDigit cs := fun c hc => (h c hc).1
  rw [spanDigits, takeWhile_append_of_stops hdigits hstops, dropWhile_append_of_stops hdigits hstops]

/-- The digits of a number have no needless zero in front. -/
theorem readWhole_toDigits (n : Nat) {cs : List Char} (h : EndsNumber cs) :
    readWhole (Nat.toDigits 10 n ++ cs) = some (Nat.toDigits 10 n, cs) := by
  rw [readWhole, spanDigits_toDigits n h]
  split
  · next hnil => exact absurd (Prod.mk.inj hnil).1 Nat.toDigits_ne_nil
  · next hzero =>
    have hdigits := (Prod.mk.inj hzero).1
    cases n with
    | zero => cases hdigits
    | succ n => exact absurd (by rw [hdigits]; rfl) (head?_toDigits (Nat.succ_pos n))
  · rfl

theorem readFraction_of_endsNumber {cs : List Char} (h : EndsNumber cs) :
    readFraction cs = some ([], cs) := by
  unfold readFraction
  split
  · exact absurd rfl (h '.' rfl).2.1
  · rfl

theorem readExponent_of_endsNumber {cs : List Char} (h : EndsNumber cs) :
    readExponent cs = some (none, cs) := by
  cases cs with
  | nil => rfl
  | cons c cs =>
    obtain ⟨-, -, he, hE⟩ := h c rfl
    simp [readExponent, he, hE]

theorem chars_ofInt (i : Int) : (Number.ofInt i).chars =
    (if i < 0 then ['-'] else []) ++ Nat.toDigits 10 i.natAbs := by
  simp [Number.ofInt, Number.chars, Number.exponentChars, Number.digits]

theorem readNumber_ofInt (i : Int) {cs : List Char} (h : EndsNumber cs) :
    readNumber ((Number.ofInt i).chars ++ cs) = some (.ofInt i, cs) := by
  have hunsigned (negative : Bool) :
      readUnsigned negative (Nat.toDigits 10 i.natAbs ++ cs) =
        some (⟨negative, Nat.toDigits 10 i.natAbs, [], none⟩, cs) := by
    simp [readUnsigned, readWhole_toDigits _ h, readFraction_of_endsNumber h,
      readExponent_of_endsNumber h]
  rw [chars_ofInt]
  by_cases hi : i < 0
  · simpa [Number.ofInt, Number.digits, hi, readNumber] using hunsigned true
  · rw [if_neg hi, List.nil_append, readNumber.eq_2]
    · simpa [Number.ofInt, Number.digits, hi] using hunsigned false
    · intro rest hrest
      obtain ⟨d, ds, hdigits, hd⟩ := exists_toDigits i.natAbs
      rw [hdigits] at hrest
      obtain ⟨rfl, -⟩ := List.cons.inj hrest
      cases hd

/-! ## Trees -/

/-- A tree whose numbers are whole and whose strings are texts. -/
inductive Plain : Json → Prop
  | null : Plain .null
  | bool (b : Bool) : Plain (.bool b)
  | int (i : Int) : Plain (.int i)
  | string (s : String) : Plain (.string s)
  | array {items : List Json} (h : ∀ item ∈ items, Plain item) : Plain (.array items)
  | object {members : List (String × Json)} (h : ∀ member ∈ members, Plain member.2) :
    Plain (.object members)

/-- What stands behind a tree: the end, or what parts it from the next one or ends what it is in. -/
def EndsTree (cs : List Char) : Prop := ∀ c ∈ cs.head?, c = ',' ∨ c = ']' ∨ c = '\x7d'

theorem EndsTree.endsNumber {cs : List Char} (h : EndsTree cs) : EndsNumber cs := by
  intro c hc
  rcases h c hc with rfl | rfl | rfl <;> decide

/-- A number begins with its sign or a digit. -/
def BeginsNumber (c : Char) : Prop := c = '-' ∨ c.isDigit = true

instance (c : Char) : Decidable (BeginsNumber c) := inferInstanceAs (Decidable (_ ∨ _))

theorem exists_chars_ofInt (i : Int) : ∃ c cs, (Number.ofInt i).chars = c :: cs ∧ BeginsNumber c := by
  obtain ⟨d, ds, hdigits, hd⟩ := exists_toDigits i.natAbs
  by_cases hi : i < 0
  · exact ⟨'-', d :: ds, by simp [chars_ofInt, hi, hdigits], .inl rfl⟩
  · exact ⟨d, ds, by simp [chars_ofInt, hi, hdigits], .inr hd⟩

theorem BeginsNumber.not_isSpace {c : Char} (h : BeginsNumber c) : isSpace c = false := by
  rw [← Bool.not_eq_true]
  intro hspace
  simp only [isSpace, Bool.or_eq_true, decide_eq_true_eq] at hspace
  rcases hspace with ((rfl | rfl) | rfl) | rfl <;> exact absurd h (by decide)

/-- A tree begins with neither a space nor a closing bracket. -/
theorem Plain.exists_compactChars {j : Json} (h : j.Plain) :
    ∃ c cs, j.compactChars = c :: cs ∧ isSpace c = false ∧ c ≠ ']' := by
  cases h with
  | null => exact ⟨'n', _, rfl, by decide, by decide⟩
  | bool b => cases b <;> exact ⟨_, _, rfl, by decide, by decide⟩
  | string s => exact ⟨'\x22', _, rfl, by decide, by decide⟩
  | array h => exact ⟨'[', _, rfl, by decide, by decide⟩
  | object h => exact ⟨'\x7b', _, rfl, by decide, by decide⟩
  | int i =>
    obtain ⟨c, cs, hchars, hc⟩ := exists_chars_ofInt i
    refine ⟨c, cs, hchars, hc.not_isSpace, ?_⟩
    rintro rfl
    exact absurd hc (by decide)

theorem skipSpace_cons {c : Char} (h : isSpace c = false) (cs : List Char) :
    skipSpace (c :: cs) = c :: cs := by
  simp [skipSpace, h]

/-- What begins like a number is read as one. -/
theorem readValue_number {c : Char} (h : BeginsNumber c) (fuel : Nat) (cs : List Char) :
    readValue (fuel + 1) (c :: cs) =
      (readNumber (c :: cs)).map fun read => (.number read.1, read.2) := by
  have hother (c' : Char) (cs' : List Char) (hc' : ¬ BeginsNumber c') : c :: cs ≠ c' :: cs' := by
    rintro heq
    exact hc' ((List.cons.inj heq).1 ▸ h)
  rw [readValue, skipSpace_cons h.not_isSpace]
  split
  case h_7 => rfl
  all_goals
    next heq => exact absurd heq (hother _ _ (by decide))

/-- A tree is read back from its text, with twice the length of the text as fuel. -/
def ReadsBack (j : Json) : Prop := ∀ (fuel : Nat) (cs : List Char),
  2 * j.compactChars.length ≤ fuel → EndsTree cs → readValue fuel (j.compactChars ++ cs) = some (j, cs)

theorem readItems_compactItems {items : List Json} (hne : items ≠ [])
    (hitems : ∀ item ∈ items, ReadsBack item) (fuel : Nat) (cs : List Char)
    (hfuel : 2 * (compactItems items).length < fuel) :
    readItems fuel (compactItems items ++ ']' :: cs) = some (items, cs) := by
  induction items generalizing fuel with
  | nil => exact absurd rfl hne
  | cons item items ih =>
    obtain ⟨fuel, rfl⟩ : ∃ n, fuel = n + 1 := ⟨fuel - 1, by omega⟩
    have hitem := hitems item (.head _)
    cases items with
    | nil =>
      have hread := hitem fuel (']' :: cs) (by simp only [compactItems] at hfuel; omega)
        (by simp [EndsTree])
      simp [readItems, compactItems, hread, skipSpace_cons (c := ']') (by decide)]
    | cons next items =>
      rw [compactItems, List.length_append, List.length_cons] at hfuel
      · -- The comma is behind the first item and takes its share of the fuel for the others.
        have hread := hitem fuel (',' :: (compactItems (next :: items) ++ ']' :: cs)) (by omega)
          (by simp [EndsTree])
        have hrest := ih (by simp) (fun item h => hitems item (.tail _ h)) fuel (by omega)
        simp [readItems, compactItems, hread, skipSpace_cons (c := ',') (by decide), hrest]
      · simp

theorem readMembers_compactMembers {members : List (String × Json)} (hne : members ≠ [])
    (hmembers : ∀ member ∈ members, ReadsBack member.2) (fuel : Nat) (cs : List Char)
    (hfuel : 2 * (compactMembers members).length < fuel) :
    readMembers fuel (compactMembers members ++ '\x7d' :: cs) =
      some (members.map fun member => (some member.1, member.2), cs) := by
  induction members generalizing fuel with
  | nil => exact absurd rfl hne
  | cons member members ih =>
    obtain ⟨name, item⟩ := member
    obtain ⟨fuel, rfl⟩ : ∃ n, fuel = n + 1 := ⟨fuel - 1, by omega⟩
    have hitem : ReadsBack item := hmembers (name, item) (.head _)
    cases members with
    | nil =>
      simp only [compactMembers, List.length_append, List.length_cons] at hfuel
      have hread := hitem fuel ('\x7d' :: cs) (by omega) (by simp [EndsTree])
      simp [readMembers, compactMembers, stringChars, readString_escaped, hread,
        skipSpace_cons (c := '\x22') (by decide), skipSpace_cons (c := ':') (by decide),
        skipSpace_cons (c := '\x7d') (by decide)]
    | cons next members =>
      rw [compactMembers] at hfuel
      · simp only [List.length_append, List.length_cons] at hfuel
        have hread := hitem fuel (',' :: (compactMembers (next :: members) ++ '\x7d' :: cs))
          (by omega) (by simp [EndsTree])
        have hrest := ih (by simp) (fun member h => hmembers member (.tail _ h)) fuel (by omega)
        simp [readMembers, compactMembers, stringChars, readString_escaped, hread, hrest,
          skipSpace_cons (c := '\x22') (by decide), skipSpace_cons (c := ':') (by decide),
          skipSpace_cons (c := ',') (by decide)]
      · simp

theorem ofMembers_some (members : List (String × Json)) :
    ofMembers (members.map fun member => (some member.1, member.2)) = .object members := by
  have hnames : (members.map fun member => (some member.1, member.2)).mapM
      (fun member => member.1.map (·, member.2)) = some members := by
    induction members with
    | nil => rfl
    | cons member members ih =>
      rw [List.map_cons, List.mapM_cons, ih]
      rfl
  rw [ofMembers, hnames]

/-- An opening bracket is followed by the items of an array. -/
theorem readValue_array {c : Char} (hspace : isSpace c = false) (hclose : c ≠ ']') (fuel : Nat)
    (cs : List Char) : readValue (fuel + 1) ('[' :: c :: cs) =
      (readItems fuel (c :: cs)).map fun read => (.array read.1, read.2) := by
  rw [readValue, skipSpace_cons (by decide)]
  simp only [skipSpace_cons hspace]
  split
  · next heq => exact absurd (List.cons.inj heq).1 hclose
  · rfl

/-- An opening brace is followed by the members of an object. -/
theorem readValue_object (fuel : Nat) (cs : List Char) :
    readValue (fuel + 1) ('\x7b' :: '\x22' :: cs) =
      (readMembers fuel ('\x22' :: cs)).map fun read => (ofMembers read.1, read.2) := by
  rw [readValue, skipSpace_cons (by decide)]
  rfl

theorem exists_compactMembers {members : List (String × Json)} (hne : members ≠ []) :
    ∃ cs, compactMembers members = '\x22' :: cs := by
  cases members with
  | nil => exact absurd rfl hne
  | cons member members => cases members <;> exact ⟨_, rfl⟩

theorem exists_compactItems {items : List Json} (hne : items ≠ [])
    (hitems : ∀ item ∈ items, item.Plain) :
    ∃ c cs, compactItems items = c :: cs ∧ isSpace c = false ∧ c ≠ ']' := by
  cases items with
  | nil => exact absurd rfl hne
  | cons item items =>
    obtain ⟨c, cs, hchars, hc⟩ := (hitems item (.head _)).exists_compactChars
    cases items with
    | nil => exact ⟨c, cs, hchars, hc⟩
    | cons next items => exact ⟨c, _, by rw [compactItems, hchars]; rfl; simp, hc⟩

theorem Plain.fuel_pos {j : Json} (h : j.Plain) {fuel : Nat}
    (hfuel : 2 * j.compactChars.length ≤ fuel) : ∃ n, fuel = n + 1 := by
  obtain ⟨c, cs, hchars, -, -⟩ := h.exists_compactChars
  rw [hchars, List.length_cons] at hfuel
  exact ⟨fuel - 1, by omega⟩

theorem Plain.readsBack {j : Json} (h : j.Plain) : ReadsBack j := by
  induction h with
  | null =>
    intro fuel cs hfuel _
    obtain ⟨fuel, rfl⟩ := Plain.null.fuel_pos hfuel
    show readValue (fuel + 1) ('n' :: 'u' :: 'l' :: 'l' :: cs) = _
    rw [readValue, skipSpace_cons (by decide)]
    rfl
  | bool b =>
    intro fuel cs hfuel _
    obtain ⟨fuel, rfl⟩ := (Plain.bool b).fuel_pos hfuel
    cases b with
    | false =>
      show readValue (fuel + 1) ('f' :: 'a' :: 'l' :: 's' :: 'e' :: cs) = _
      rw [readValue, skipSpace_cons (by decide)]
      rfl
    | true =>
      show readValue (fuel + 1) ('t' :: 'r' :: 'u' :: 'e' :: cs) = _
      rw [readValue, skipSpace_cons (by decide)]
      rfl
  | int i =>
    intro fuel cs hfuel hcs
    obtain ⟨fuel, rfl⟩ := (Plain.int i).fuel_pos hfuel
    obtain ⟨c, chars, hchars, hc⟩ := exists_chars_ofInt i
    have hread := readNumber_ofInt i hcs.endsNumber
    rw [hchars, List.cons_append] at hread
    show readValue (fuel + 1) ((Number.ofInt i).chars ++ cs) = _
    rw [hchars, List.cons_append, readValue_number hc, hread]
    rfl
  | string s =>
    intro fuel cs hfuel _
    obtain ⟨fuel, rfl⟩ := (Plain.string s).fuel_pos hfuel
    have hread := readString_escaped cs s
    show readValue (fuel + 1) ('\x22' :: (s.toList.flatMap escapeChar ++ ['\x22'] ++ cs)) = _
    rw [List.append_assoc, List.singleton_append, readValue, skipSpace_cons (by decide)]
    simp only [hread]
    rfl
  | @array items h ih =>
    intro fuel cs hfuel _
    obtain ⟨fuel, rfl⟩ := (Plain.array h).fuel_pos hfuel
    by_cases hne : items = []
    · subst hne
      rfl
    obtain ⟨c, chars, hchars, hspace, hclose⟩ := exists_compactItems hne h
    simp only [compactChars, List.length_cons, List.length_append, List.length_nil] at hfuel
    have hitems := readItems_compactItems hne ih fuel cs (by omega)
    rw [hchars, List.cons_append] at hitems
    simp only [compactChars, hchars, List.cons_append, List.append_assoc, List.nil_append]
    rw [readValue_array hspace hclose, hitems]
    rfl
  | @object members h ih =>
    intro fuel cs hfuel _
    obtain ⟨fuel, rfl⟩ := (Plain.object h).fuel_pos hfuel
    by_cases hne : members = []
    · subst hne
      rfl
    obtain ⟨chars, hchars⟩ := exists_compactMembers hne
    simp only [compactChars, List.length_cons, List.length_append, List.length_nil] at hfuel
    have hmembers := readMembers_compactMembers hne ih fuel cs (by omega)
    rw [hchars, List.cons_append] at hmembers
    simp only [compactChars, hchars, List.cons_append, List.append_assoc, List.nil_append]
    rw [readValue_object, hmembers, Option.map_some, ofMembers_some]

/-- What has been written is read back. -/
theorem Plain.read?_compact {j : Json} (h : j.Plain) : read? j.compact = some j := by
  have hread := h.readsBack (2 * j.compactChars.length + 2) [] (by omega) (by simp [EndsTree])
  rw [List.append_nil] at hread
  simp [read?, compact, hread, skipSpace]

end QueryCriteria.Json
