import QueryCriteria.Proofs.EntityQuery.Restriction
import QueryCriteria.Proofs.Prefix
import QueryCriteria.Schema
/-!
# The alphabet of queries

Names of letters and digits of ASCII, and paths of them with dots between. A name or a path is told
from what follows it where that goes on with another character.
-/

namespace QueryCriteria.EntityQuery

/-- Letters and digits of ASCII, and the underscore. -/
def isNameChar (c : Char) : Bool := c.isAlphanum || c == '_'

/-- What names are made of, and the dot between them. -/
def isPathChar (c : Char) : Bool := isNameChar c || c == '.'

/-- A text as names are made of. -/
def AsciiName (s : String) : Prop := ∀ c ∈ s.toList, isNameChar c = true

/-- A text as paths of names are made of. -/
def AsciiPath (s : String) : Prop := ∀ c ∈ s.toList, isPathChar c = true

instance (s : String) : Decidable (AsciiName s) := List.decidableBAll _ s.toList

instance (s : String) : Decidable (AsciiPath s) := List.decidableBAll _ s.toList

theorem isPathChar_of_isNameChar {c : Char} (h : isNameChar c = true) : isPathChar c = true := by
  rw [isPathChar, h, Bool.true_or]

theorem stops_name {cs : List Char} (h : Stops isPathChar cs) : Stops isNameChar cs := by
  intro c hc
  have hpath := h c hc
  rw [isPathChar, Bool.or_eq_false_iff] at hpath
  exact hpath.1

theorem AsciiName.path {s : String} (h : AsciiName s) : AsciiPath s :=
  fun c hc => isPathChar_of_isNameChar (h c hc)

theorem name_append_inj {s s' : String} {r r' : List Char} (hs : AsciiName s) (hs' : AsciiName s')
    (hr : Stops isNameChar r) (hr' : Stops isNameChar r') (h : s.toList ++ r = s'.toList ++ r') :
    s = s' ∧ r = r' := by
  obtain ⟨hname, hrest⟩ := span_append_inj hs hs' hr hr' h
  exact ⟨String.toList_inj.1 hname, hrest⟩

theorem path_append_inj {s s' : String} {r r' : List Char} (hs : AsciiPath s) (hs' : AsciiPath s')
    (hr : Stops isPathChar r) (hr' : Stops isPathChar r') (h : s.toList ++ r = s'.toList ++ r') :
    s = s' ∧ r = r' := by
  obtain ⟨hpath, hrest⟩ := span_append_inj hs hs' hr hr' h
  exact ⟨String.toList_inj.1 hpath, hrest⟩

theorem toNat_lt_of_isNameChar {c : Char} (h : isNameChar c = true) : c.toNat < 0x80 := by
  have hbelow {d : Char} (hle : c.val ≤ d.val) (hd : d.toNat < 0x80) : c.toNat < 0x80 :=
    Nat.lt_of_le_of_lt (UInt32.le_iff_toNat_le.1 hle) hd
  have hrange {a z : Char} (h : (decide (a.val ≤ c.val) && decide (c.val ≤ z.val)) = true) :
      c.val ≤ z.val := of_decide_eq_true (Bool.and_eq_true_iff.1 h).2
  have hc : (c.isUpper || c.isLower || c.isDigit || c == '_') = true := h
  simp only [Bool.or_eq_true, beq_iff_eq] at hc
  rcases hc with ((hupper | hlower) | hdigit) | rfl
  · exact hbelow (of_decide_eq_true hupper).2 (by decide)
  · exact hbelow (hrange hlower) (by decide)
  · exact hbelow (hrange hdigit) (by decide)
  · decide

theorem isNameChar_toLower {c : Char} (h : isNameChar c = true) : isNameChar c.toLower = true := by
  have hascii : ∀ n < 0x80, isNameChar (.ofNat n) = true →
      isNameChar (Char.ofNat n).toLower = true := by decide
  have hc := hascii c.toNat (toNat_lt_of_isNameChar h)
  rw [Char.ofNat_toNat] at hc
  exact hc h

namespace AsciiName

variable {s : String}

theorem lower (h : AsciiName s) : AsciiName (Text.lower s) := by
  have hafter (before cs : List Char) (hcs : ∀ c ∈ cs, isNameChar c = true) :
      ∀ c ∈ Text.lowerAfter before cs, isNameChar c = true := by
    induction cs generalizing before with
    | nil => exact nofun
    | cons c cs ih =>
      obtain ⟨hc, hcs⟩ := List.forall_mem_cons.1 hcs
      have hchar : Text.lowerChar c = [c.toLower] := if_pos (toNat_lt_of_isNameChar hc)
      have hsigma : c ≠ 'Σ' := by
        rintro rfl
        exact absurd hc (by decide)
      rw [Text.lowerAfter, if_neg hsigma, hchar]
      exact List.forall_mem_cons.2 ⟨isNameChar_toLower hc, ih _ hcs⟩
  intro c hc
  rw [Text.lower, String.toList_ofList] at hc
  exact hafter [] s.toList h c hc

theorem simpleName (h : AsciiName s) : AsciiName (simpleName s) := by
  intro c hc
  rw [QueryCriteria.simpleName, String.toList_ofList, List.mem_reverse] at hc
  exact h c (List.mem_reverse.1 ((List.takeWhile_sublist _).subset hc))

end AsciiName

theorem asciiName_parameterName (n : Nat) : AsciiName (parameterName n) := by
  have hparam : AsciiName "param" := by decide
  intro c hc
  rw [parameterName, String.toList_append] at hc
  rcases List.mem_append.1 hc with hc | hc
  · exact hparam c hc
  · have hdigits : c ∈ Nat.toDigits 10 n := by simpa using hc
    have hdigit := Nat.isDigit_of_mem_toDigits (by decide) (by decide) hdigits
    simp [isNameChar, Char.isAlphanum, hdigit]

theorem asciiPath_append {name operand : String} (hname : AsciiName name)
    (hoperand : AsciiPath operand) : AsciiPath (name ++ "." ++ operand) := by
  intro c hc
  simp only [String.toList_append, List.mem_append] at hc
  rcases hc with (hc | hc) | hc
  · exact hname.path c hc
  · obtain rfl := List.mem_singleton.1 hc
    rfl
  · exact hoperand c hc

end QueryCriteria.EntityQuery
