import QueryCriteria.Proofs.Json.RoundTrip
import QueryCriteria.Text.Blank
/-!
# The two layouts of JSON

The indented text of a tree differs from the compact one in white space outside the string literals
and in nothing else (`Solid.squeeze_pretty`). Each piece of the one is squeezed to a piece of the
other and ends where it began, outside the literals, so that what is true of the pieces is true of
the text (`Squeezes.append`).
-/

namespace QueryCriteria

namespace Json

/-! ## White space outside string literals -/

/-- Where a reader is with regard to the string literals of a text. -/
inductive Place where
  | outside
  | inside
  /-- Inside a literal behind a backslash, where a quote ends nothing. -/
  | escaped
deriving DecidableEq

/-- The place behind another character. -/
def Place.next : Place → Char → Place
  | .outside, c => if c = '\x22' then .inside else .outside
  | .inside, c => if c = '\x22' then .outside else if c = '\\' then .escaped else .inside
  | .escaped, _ => .inside

/-- What is left of a text when the white space outside its string literals is removed. -/
def squeeze : Place → List Char → List Char
  | _, [] => []
  | place, c :: cs =>
    if place = .outside ∧ Text.isWhite c = true then squeeze (place.next c) cs
    else c :: squeeze (place.next c) cs

theorem squeeze_append (place : Place) (cs ds : List Char) :
    squeeze place (cs ++ ds) = squeeze place cs ++ squeeze (cs.foldl Place.next place) ds := by
  induction cs generalizing place with
  | nil => rfl
  | cons c cs ih =>
    rw [List.cons_append, squeeze, squeeze, List.foldl_cons, ih]
    split <;> rfl

/-- A piece of a text is squeezed to another and ends in the place where it begins. -/
structure Squeezes (place : Place) (cs ds : List Char) : Prop where
  squeezed : squeeze place cs = ds
  returns : cs.foldl Place.next place = place

variable {place : Place} {c : Char} {cs cs' ds ds' : List Char}

theorem squeezes_nil : Squeezes place [] [] := ⟨rfl, rfl⟩

theorem Squeezes.append (h : Squeezes place cs ds) (h' : Squeezes place cs' ds') :
    Squeezes place (cs ++ cs') (ds ++ ds') := by
  constructor
  · rw [squeeze_append, h.squeezed, h.returns, h'.squeezed]
  · rw [List.foldl_append, h.returns, h'.returns]

theorem Squeezes.flatMap {f : Char → List Char} (h : ∀ c, Squeezes place (f c) (f c))
    (text : List Char) : Squeezes place (text.flatMap f) (text.flatMap f) := by
  induction text with
  | nil => exact squeezes_nil
  | cons c text ih => exact (h c).append ih

/-- White space goes. -/
theorem squeezes_white (h : ∀ c ∈ cs, Text.isWhite c = true) : Squeezes .outside cs [] := by
  induction cs with
  | nil => exact squeezes_nil
  | cons c cs ih =>
    obtain ⟨hc, hcs⟩ := List.forall_mem_cons.1 h
    have hquote : c ≠ '\x22' := by
      rintro rfl
      exact absurd hc (by decide)
    have hone : Squeezes .outside [c] [] := ⟨by simp [squeeze, hc], by simp [Place.next, hquote]⟩
    exact hone.append (ih hcs)

/-- What is neither white space nor a literal stays. -/
theorem squeezes_plain (h : ∀ c ∈ cs, Text.isWhite c = false ∧ c ≠ '\x22') :
    Squeezes .outside cs cs := by
  induction cs with
  | nil => exact squeezes_nil
  | cons c cs ih =>
    obtain ⟨⟨hwhite, hquote⟩, hcs⟩ := List.forall_mem_cons.1 h
    have hone : Squeezes .outside [c] [c] :=
      ⟨by simp [squeeze, hwhite], by simp [Place.next, hquote]⟩
    exact hone.append (ih hcs)

theorem squeezes_newline (level : Nat) : Squeezes .outside (newline level) [] := by
  apply squeezes_white
  intro c hc
  rcases List.mem_cons.1 hc with rfl | hc
  · decide
  · rw [List.eq_of_mem_replicate hc]
    decide

/-! ## Literals -/

/-- In a literal everything stays; what neither ends it nor escapes leaves the reader inside. -/
theorem squeezes_inside (h : ∀ c ∈ cs, c ≠ '\x22' ∧ c ≠ '\\') : Squeezes .inside cs cs := by
  induction cs with
  | nil => exact squeezes_nil
  | cons c cs ih =>
    obtain ⟨⟨hquote, hslash⟩, hcs⟩ := List.forall_mem_cons.1 h
    have hone : Squeezes .inside [c] [c] := ⟨rfl, by simp [Place.next, hquote, hslash]⟩
    exact hone.append (ih hcs)

theorem squeezes_escapeByNumber (hcontrol : c.toNat < 0x20) :
    Squeezes .inside (escapeByNumber c) (escapeByNumber c) := by
  have hletter : Squeezes .inside ['\\', 'u'] ['\\', 'u'] := ⟨rfl, rfl⟩
  have hdigit : ∀ n < 16, Nat.digitChar n ≠ '\x22' ∧ Nat.digitChar n ≠ '\\' := by decide
  have hhigh := hdigit (c.toNat / 16) (by omega)
  have hlow := hdigit (c.toNat % 16) (by omega)
  exact hletter.append (squeezes_inside (by simp [hhigh, hlow]))

/-- However a character is escaped, a reader of a literal is inside it again behind it. -/
theorem squeezes_escapeChar (c : Char) : Squeezes .inside (escapeChar c) (escapeChar c) := by
  obtain ⟨e, hescape, -⟩ | ⟨hcontrol, hescape⟩ | ⟨hquote, hslash, -, hescape⟩ :=
    escapeChar_cases c
  · rw [hescape]
    exact ⟨rfl, rfl⟩
  · rw [hescape]
    exact squeezes_escapeByNumber hcontrol
  · rw [hescape]
    exact squeezes_inside (by simp [hquote, hslash])

theorem squeezes_stringChars (s : String) : Squeezes .outside (stringChars s) (stringChars s) := by
  have htext := Squeezes.flatMap squeezes_escapeChar s.toList
  have hquote : Text.isWhite '\x22' = false := by decide
  constructor
  · simp [stringChars, squeeze, Place.next, squeeze_append, htext.squeezed, htext.returns, hquote]
  · simp [stringChars, Place.next, htext.returns]

/-! ## Numbers -/

end Json

namespace Decimal.Digits

variable (d : Digits)

theorem isDigit_of_mem_chars : ∀ c ∈ d.chars, c.isDigit = true :=
  fun _ hc => Nat.isDigit_of_mem_toDigits (by decide) (by decide) hc

theorem isDigit_of_mem_zeros {n : Nat} : ∀ c ∈ List.replicate n '0', c.isDigit = true := by
  intro c hc
  rw [List.eq_of_mem_replicate hc]
  decide

theorem isDigit_of_mem_zero : ∀ c ∈ ['0'], c.isDigit = true := isDigit_of_mem_zeros (n := 1)

theorem isDigit_of_mem_whole : ∀ c ∈ d.whole, c.isDigit = true := by
  unfold whole
  split
  · exact isDigit_of_mem_zero
  · intro c hc
    rcases List.mem_append.1 hc with hc | hc
    · exact d.isDigit_of_mem_chars c (List.mem_of_mem_take hc)
    · exact isDigit_of_mem_zeros c hc

theorem isDigit_of_mem_fraction : ∀ c ∈ d.fraction, c.isDigit = true := by
  unfold fraction
  split
  · intro c hc
    rcases List.mem_append.1 hc with hc | hc
    · exact isDigit_of_mem_zeros c hc
    · exact d.isDigit_of_mem_chars c hc
  · intro c hc
    exact d.isDigit_of_mem_chars c (List.mem_of_mem_drop hc)

end Decimal.Digits

namespace Json

/-- The digits of a number are digits. -/
structure Number.OfDigits (n : Number) : Prop where
  whole : ∀ c ∈ n.whole, c.isDigit = true
  fraction : ∀ c ∈ n.fraction, c.isDigit = true

theorem Number.isDigit_of_mem_digits (n : Nat) : ∀ c ∈ Number.digits n, c.isDigit = true :=
  fun _ hc => Nat.isDigit_of_mem_toDigits (by decide) (by decide) hc

theorem Number.ofDigits_ofInt (i : Int) : (Number.ofInt i).OfDigits :=
  ⟨isDigit_of_mem_digits _, nofun⟩

/-- The digits of a float are those of a decimal, moved around the point. -/
theorem Number.ofDigits_ofFloat? {x : Float} {n : Number} (h : Number.ofFloat? x = some n) :
    n.OfDigits := by
  have hzero := Decimal.Digits.isDigit_of_mem_zero
  have hpositional (negative : Bool) (d : Decimal.Digits) : (positional negative d).OfDigits := by
    refine ⟨d.isDigit_of_mem_whole, ?_⟩
    unfold positional
    split
    · exact hzero
    · exact d.isDigit_of_mem_fraction
  have hscientific (negative : Bool) (d : Decimal.Digits) : (scientific negative d).OfDigits :=
    ⟨fun c hc => d.isDigit_of_mem_chars c (List.mem_of_mem_take hc),
      fun c hc => d.isDigit_of_mem_chars c (List.mem_of_mem_drop hc)⟩
  unfold Number.ofFloat? at h
  split at h
  · cases h
  · cases h
  · cases h
    exact ⟨hzero, hzero⟩
  · cases h
    split
    · exact hpositional _ _
    · exact hscientific _ _

theorem not_isWhite_of_isDigit (h : c.isDigit = true) : Text.isWhite c = false ∧ c ≠ '\x22' := by
  constructor
  · have hbounds : 48 ≤ c.toNat ∧ c.toNat ≤ 57 := Char.isDigit_iff_toNat.1 h
    simp only [Text.isWhite, Text.whiteRanges, Text.inRanges_cons, Text.inRanges_nil,
      Bool.or_false, Bool.or_eq_false_iff, Bool.and_eq_false_imp, decide_eq_true_eq,
      decide_eq_false_iff_not, Nat.not_le]
    omega
  · rintro rfl
    cases h

/-- A number is written without white space and quotes. -/
theorem Number.OfDigits.squeezes {n : Number} (h : n.OfDigits) :
    Squeezes .outside n.chars n.chars := by
  have hdigits (ds : List Char) (hds : ∀ c ∈ ds, c.isDigit = true) : Squeezes .outside ds ds :=
    squeezes_plain fun c hc => not_isWhite_of_isDigit (hds c hc)
  have hmark (c : Char) (hc : Text.isWhite c = false ∧ c ≠ '\x22') : Squeezes .outside [c] [c] :=
    squeezes_plain (by simpa using hc)
  have hsign : Squeezes .outside (if n.negative then ['-'] else [])
      (if n.negative then ['-'] else []) := by
    split
    · exact hmark '-' (by decide)
    · exact squeezes_nil
  have hfraction : Squeezes .outside (if n.fraction.isEmpty then [] else '.' :: n.fraction)
      (if n.fraction.isEmpty then [] else '.' :: n.fraction) := by
    split
    · exact squeezes_nil
    · exact (hmark '.' (by decide)).append (hdigits _ h.fraction)
  have hexponent (e : Option Int) : Squeezes .outside (exponentChars e) (exponentChars e) := by
    cases e with
    | none => exact squeezes_nil
    | some e =>
      have hsigned : Squeezes .outside [if e < 0 then '-' else '+'] [if e < 0 then '-' else '+'] :=
        hmark _ (by split <;> decide)
      exact (hmark 'e' (by decide)).append (hsigned.append (hdigits _ (isDigit_of_mem_digits _)))
  exact ((hsign.append (hdigits _ h.whole)).append hfraction).append (hexponent _)

/-! ## Trees -/

/-- A tree whose numbers are made of digits. -/
inductive Solid : Json → Prop
  | null : Solid .null
  | bool (b : Bool) : Solid (.bool b)
  | number {n : Number} (h : n.OfDigits) : Solid (.number n)
  | string (s : String) : Solid (.string s)
  | unpaired : Solid .unpaired
  | array {items : List Json} (h : ∀ item ∈ items, Solid item) : Solid (.array items)
  | object {members : List (String × Json)} (h : ∀ member ∈ members, Solid member.2) :
    Solid (.object members)

/-- The indented text of a tree at any level is squeezed to its compact text. -/
def SqueezesToCompact (j : Json) : Prop :=
  ∀ level, Squeezes .outside (j.prettyChars level) j.compactChars

theorem squeezes_comma : Squeezes .outside [','] [','] := ⟨by decide, rfl⟩

theorem squeezes_items {items : List Json} (h : ∀ item ∈ items, SqueezesToCompact item)
    (level : Nat) : Squeezes .outside (prettyItems level items) (compactItems items) := by
  induction items with
  | nil => exact squeezes_nil
  | cons item items ih =>
    obtain ⟨hitem, hitems⟩ := List.forall_mem_cons.1 h
    have hline := (squeezes_newline level).append (hitem level)
    cases items with
    | nil => exact hline
    | cons next items => exact hline.append (squeezes_comma.append (ih hitems))

theorem squeezes_members {members : List (String × Json)}
    (h : ∀ member ∈ members, SqueezesToCompact member.2) (level : Nat) :
    Squeezes .outside (prettyMembers level members) (compactMembers members) := by
  have hcolon : Squeezes .outside [':', ' '] [':'] := ⟨by decide, rfl⟩
  induction members with
  | nil => exact squeezes_nil
  | cons member members ih =>
    obtain ⟨hmember, hmembers⟩ := List.forall_mem_cons.1 h
    have hline := ((squeezes_newline level).append (squeezes_stringChars member.1)).append
      (hcolon.append (hmember level))
    cases members with
    | nil => exact hline
    | cons next members =>
      have hall := hline.append (squeezes_comma.append (ih hmembers))
      simpa [prettyMembers, compactMembers] using hall

theorem Solid.squeezesToCompact {j : Json} (h : j.Solid) : j.SqueezesToCompact := by
  induction h with
  | null => exact fun _ => ⟨rfl, rfl⟩
  | bool b => cases b <;> exact fun _ => ⟨rfl, rfl⟩
  | number h => exact fun _ => h.squeezes
  | string s => exact fun _ => squeezes_stringChars s
  | unpaired => exact fun _ => ⟨rfl, rfl⟩
  | @array items h ih =>
    intro level
    cases items with
    | nil => exact ⟨rfl, rfl⟩
    | cons item items =>
      have hopen : Squeezes .outside ['['] ['['] := ⟨rfl, rfl⟩
      have hclose : Squeezes .outside [']'] [']'] := ⟨rfl, rfl⟩
      have hall := hopen.append (((squeezes_items ih (level + 1)).append
        (squeezes_newline level)).append hclose)
      simpa [prettyChars, compactChars] using hall
  | @object members h ih =>
    intro level
    cases members with
    | nil => exact ⟨rfl, rfl⟩
    | cons member members =>
      have hopen : Squeezes .outside ['\x7b'] ['\x7b'] := ⟨rfl, rfl⟩
      have hclose : Squeezes .outside ['\x7d'] ['\x7d'] := ⟨rfl, rfl⟩
      have hall := hopen.append (((squeezes_members ih (level + 1)).append
        (squeezes_newline level)).append hclose)
      simpa [prettyChars, compactChars] using hall

/-- A printed line is squeezed to the compact text. -/
theorem Solid.squeeze_pretty {j : Json} (h : j.Solid) :
    squeeze .outside (j.pretty ++ "\n").toList = j.compact.toList := by
  have hline := (h.squeezesToCompact 0).append (squeezes_newline 0)
  simpa [pretty, compact, newline] using hline.squeezed

end Json

end QueryCriteria
