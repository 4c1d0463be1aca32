import QueryCriteria.Text.Ranges
/-!
# White space

White space is the Unicode property `White_Space`. A text is blank when it holds nothing else;
trimming removes it at both ends and leaves what stands between.
-/

namespace QueryCriteria.Text

/-- The code points with the property `White_Space`. -/
def whiteRanges : List (Nat × Nat) :=
  [(0x09, 0x0d), (0x20, 0x20), (0x85, 0x85), (0xa0, 0xa0), (0x1680, 0x1680), (0x2000, 0x200a),
   (0x2028, 0x2029), (0x202f, 0x202f), (0x205f, 0x205f), (0x3000, 0x3000)]

/-- Whether a character is white space. -/
def isWhite (c : Char) : Bool := inRanges whiteRanges c.toNat

/-- Whether a text holds white space only; the empty text does. -/
def isBlank (s : String) : Bool := s.toList.all isWhite

/-- The characters left when white space is dropped at both ends. -/
def trimChars (cs : List Char) : List Char :=
  ((cs.dropWhile isWhite).reverse.dropWhile isWhite).reverse

/-- A text without the white space at its ends. -/
def trim (s : String) : String := String.ofList (trimChars s.toList)

/-- A text with its ASCII capitals replaced by small letters. -/
def lowerAscii (s : String) : String := s.map Char.toLower

@[simp] theorem toList_lowerAscii (s : String) :
    (lowerAscii s).toList = s.toList.map Char.toLower :=
  String.toList_map

@[simp] theorem toList_trim (s : String) : (trim s).toList = trimChars s.toList := by
  simp [trim]

theorem dropWhile_eq_nil_iff_all (p : Char → Bool) (cs : List Char) :
    cs.dropWhile p = [] ↔ cs.all p = true := by
  induction cs with
  | nil => simp
  | cons c cs ih => by_cases h : p c = true <;> simp [h, ih]

/-- Trimming leaves nothing exactly when the text is blank. -/
theorem trimChars_eq_nil_iff (cs : List Char) : trimChars cs = [] ↔ cs.all isWhite = true := by
  unfold trimChars
  rw [List.reverse_eq_nil_iff, dropWhile_eq_nil_iff_all, List.all_reverse]
  constructor
  · intro h
    rw [← dropWhile_eq_nil_iff_all]
    cases hd : cs.dropWhile isWhite with
    | nil => rfl
    | cons c rest =>
      have hc : isWhite c = true := by rw [hd] at h; exact (List.all_eq_true.1 h) c (by simp)
      have := List.head_dropWhile_not isWhite (l := cs) (by simp [hd])
      simp [hd, hc] at this
  · intro h
    rw [(dropWhile_eq_nil_iff_all _ _).2 h]; rfl

end QueryCriteria.Text
