import QueryCriteria.Json.Reader
import QueryCriteria.Proofs.DirectorySearch.Reference
/-!
# The readability of filters

A filter can be read back from its text. An escaped value holds no bracket and unescapes to the
value; a node tells what it is by its first characters and ends at the bracket that closes it; and
only the object classes look like a group without being one, which tells them by their place.
-/

open QueryCriteria.DirectorySearch (Filter)
open QueryCriteria.Json (hexDigit?)

namespace QueryCriteria

namespace DirectorySearch

/-! ## Values -/

/-- The octets of an escaped value: a backslash comes with two digits and stands for one octet,
every other character for itself. -/
def octets? : List Char → Option (List UInt8)
  | [] => some []
  | '\\' :: high :: low :: cs => do
    let octet := 16 * (← hexDigit? high) + (← hexDigit? low)
    return UInt8.ofNat octet :: (← octets? cs)
  | '\\' :: _ => none
  | c :: cs => (octets? cs).map (String.utf8EncodeChar c ++ ·)

/-- The value that is escaped. -/
def unescape? (cs : List Char) : Option String :=
  (octets? cs).bind fun octets => String.fromUTF8? octets.toByteArray

theorem octets?_cons {c : Char} (h : c ≠ '\\') (cs : List Char) :
    octets? (c :: cs) = (octets? cs).map (String.utf8EncodeChar c ++ ·) := by
  rw [octets?.eq_def]
  split <;> simp_all

/-- A backslash and two digits stand for one octet. -/
theorem octets?_digits {high low : Char} {m n : Nat} (hm : hexDigit? high = some m)
    (hn : hexDigit? low = some n) (cs : List Char) :
    octets? ('\\' :: high :: low :: cs) =
      (octets? cs).map ([UInt8.ofNat (16 * m + n)] ++ ·) := by
  rw [octets?, hm, hn]
  cases octets? cs <;> rfl

/-- The escape of a character stands for the octets of that character. -/
theorem octets?_escapeChar (c : Char) (cs : List Char) :
    octets? (escapeChar c ++ cs) = (octets? cs).map (String.utf8EncodeChar c ++ ·) := by
  by_cases h₁ : c = '\\'
  · subst h₁
    exact octets?_digits (m := 5) (n := 12) (by decide) (by decide) cs
  by_cases h₂ : c = '('
  · subst h₂
    exact octets?_digits (m := 2) (n := 8) (by decide) (by decide) cs
  by_cases h₃ : c = ')'
  · subst h₃
    exact octets?_digits (m := 2) (n := 9) (by decide) (by decide) cs
  by_cases h₄ : c = '\x00'
  · subst h₄
    exact octets?_digits (m := 0) (n := 0) (by decide) (by decide) cs
  · rw [escapeChar, if_neg h₁, if_neg h₂, if_neg h₃, if_neg h₄]
    exact octets?_cons h₁ cs

theorem octets?_flatMap_escapeChar (cs : List Char) :
    octets? (cs.flatMap escapeChar) = some (cs.flatMap String.utf8EncodeChar) := by
  induction cs with
  | nil => rfl
  | cons c cs ih =>
    rw [List.flatMap_cons, octets?_escapeChar, ih]
    rfl

/-- Every value comes back from its escape. -/
theorem unescape?_escape (s : String) : unescape? (escape s) = some s := by
  have hbytes : (s.toList.flatMap String.utf8EncodeChar).toByteArray = s.toByteArray :=
    String.utf8Encode_toList
  rw [unescape?, escape, octets?_flatMap_escapeChar, Option.bind_some, hbytes]
  exact dif_pos s.isValidUTF8

theorem escape_injective : Function.Injective escape := by
  intro s s' h
  have hs := unescape?_escape s
  rw [h, unescape?_escape] at hs
  exact (Option.some.inj hs).symm

/-- An escaped value holds no bracket. -/
theorem not_mem_escape (s : String) : '(' ∉ escape s ∧ ')' ∉ escape s := by
  have hchar : ∀ c, '(' ∉ escapeChar c ∧ ')' ∉ escapeChar c := by
    intro c
    unfold escapeChar
    repeat' split
    all_goals first
      | decide
      | simp_all [eq_comm]
  unfold escape
  simp only [List.mem_flatMap, not_exists, not_and]
  exact ⟨fun c _ => (hchar c).1, fun c _ => (hchar c).2⟩

/-- Two lists that agree up to a sign that neither beginning holds agree in the beginnings. -/
theorem append_sign_inj {α : Type} {sign : α} {xs xs' ys ys' : List α} (hxs : sign ∉ xs)
    (hxs' : sign ∉ xs') (h : xs ++ sign :: ys = xs' ++ sign :: ys') : xs = xs' ∧ ys = ys' := by
  induction xs generalizing xs' with
  | nil =>
    cases xs' with
    | nil => exact ⟨rfl, (List.cons.inj h).2⟩
    | cons x' xs' =>
      obtain ⟨rfl, -⟩ := List.cons.inj h
      exact absurd (.head _) hxs'
  | cons x xs ih =>
    cases xs' with
    | nil =>
      obtain ⟨rfl, -⟩ := List.cons.inj h
      exact absurd (.head _) hxs
    | cons x' xs' =>
      obtain ⟨rfl, htail⟩ := List.cons.inj h
      obtain ⟨rfl, hys⟩ := ih (fun hm => hxs (.tail _ hm)) (fun hm => hxs' (.tail _ hm)) htail
      exact ⟨rfl, hys⟩

/-- A value ends at the bracket that closes its node. -/
theorem escape_append_inj {s s' : String} {r r' : List Char}
    (h : escape s ++ ')' :: r = escape s' ++ ')' :: r') : s = s' ∧ r = r' := by
  obtain ⟨hs, hr⟩ := append_sign_inj (not_mem_escape s).2 (not_mem_escape s').2 h
  exact ⟨escape_injective hs, hr⟩

/-! ## Leaves -/

/-- An attribute that cannot be taken for a part of the form of a filter. -/
structure Legible (attributeName : String) : Prop where
  chars : ∀ c ∈ attributeName.toList, c ≠ '(' ∧ c ≠ ')' ∧ c ≠ '=' ∧ c ≠ '>'
  head : ∀ c ∈ attributeName.toList.head?, c ≠ '!' ∧ c ≠ '&' ∧ c ≠ '|'

instance (attributeName : String) : Decidable (Legible attributeName) :=
  decidable_of_iff
    (attributeName.toList.all (fun c => c ≠ '(' ∧ c ≠ ')' ∧ c ≠ '=' ∧ c ≠ '>') = true ∧
      attributeName.toList.head?.all (fun c => c ≠ '!' ∧ c ≠ '&' ∧ c ≠ '|') = true)
    ⟨fun h => ⟨by simpa using h.1, by simpa [Option.all_eq_true] using h.2⟩,
      fun h => ⟨by simpa using h.chars, by simpa [Option.all_eq_true] using h.head⟩⟩

/-- What stands before the equals sign of a leaf. -/
def leafKey (attributeName : String) : Assertion → List Char
  | .equal => attributeName.toList
  | .notEqual => '!' :: attributeName.toList
  | .greaterOrEqual => attributeName.toList ++ ['>']

theorem chars_compare_append (attributeName : String) (assertion : Assertion) (value : String)
    (r : List Char) : (Filter.compare attributeName assertion value).chars ++ r =
      '(' :: (leafKey attributeName assertion ++ '=' :: (escape value ++ ')' :: r)) := by
  cases assertion <;> simp [Filter.chars, leafKey, Assertion.negation, Assertion.sign]

section

variable {a a' : String}

theorem Legible.mem_leafKey (h : Legible a) {assertion : Assertion} {c : Char}
    (hc : c ∈ leafKey a assertion) : c ≠ '(' ∧ c ≠ ')' ∧ c ≠ '=' := by
  have hchars : ∀ c ∈ a.toList, c ≠ '(' ∧ c ≠ ')' ∧ c ≠ '=' := fun c hc =>
    ⟨(h.chars c hc).1, (h.chars c hc).2.1, (h.chars c hc).2.2.1⟩
  cases assertion with
  | equal => exact hchars c hc
  | notEqual =>
    rcases List.mem_cons.1 hc with rfl | hc
    · decide
    · exact hchars c hc
  | greaterOrEqual =>
    rcases List.mem_append.1 hc with hc | hc
    · exact hchars c hc
    · rw [List.mem_singleton.1 hc]
      decide

/-- A leaf does not begin like a group. -/
theorem Legible.ne_mark (h : Legible a) {assertion : Assertion} {c : Char} {cs cs' : List Char}
    (he : leafKey a assertion ++ '=' :: cs = c :: cs') : c ≠ '&' ∧ c ≠ '|' := by
  cases assertion with
  | notEqual =>
    obtain ⟨rfl, -⟩ := List.cons.inj he
    decide
  | _ =>
    cases ha : a.toList with
    | nil =>
      simp only [leafKey, ha, List.nil_append, List.singleton_append, List.cons.injEq] at he
      rw [← he.1]
      decide
    | cons x xs =>
      simp only [leafKey, ha, List.cons_append, List.cons.injEq] at he
      rw [← he.1]
      exact (h.head x (by rw [ha]; rfl)).2

/-- Attribute and assertion are told by what stands before the equals sign. -/
theorem Legible.leafKey_inj (h : Legible a) (h' : Legible a') {b b' : Assertion}
    (he : leafKey a b = leafKey a' b') : a = a' ∧ b = b' := by
  have hgreater {a : String} (h : Legible a) {xs : List Char} : a.toList ≠ xs ++ ['>'] := fun he =>
    (h.chars '>' (by simp [he])).2.2.2 rfl
  have hnegated {a : String} (h : Legible a) {xs : List Char} : a.toList ≠ '!' :: xs := fun he =>
    (h.head '!' (by simp [he])).1 rfl
  have hmixed {a a' : String} (h' : Legible a') : '!' :: a.toList ≠ a'.toList ++ ['>'] := by
    intro he
    cases ha' : a'.toList with
    | nil => simp [ha'] at he
    | cons x xs =>
      rw [ha'] at he
      obtain ⟨rfl, -⟩ := List.cons.inj he
      exact hnegated h' ha'
  cases b <;> cases b' <;> simp only [leafKey] at he
  case equal.equal => exact ⟨String.toList_injective he, rfl⟩
  case equal.notEqual => exact absurd he (hnegated h)
  case equal.greaterOrEqual => exact absurd he (hgreater h)
  case notEqual.equal => exact absurd he.symm (hnegated h')
  case notEqual.notEqual => exact ⟨String.toList_injective (List.cons.inj he).2, rfl⟩
  case notEqual.greaterOrEqual => exact absurd he (hmixed h')
  case greaterOrEqual.equal => exact absurd he.symm (hgreater h')
  case greaterOrEqual.notEqual => exact absurd he.symm (hmixed h)
  case greaterOrEqual.greaterOrEqual =>
    exact ⟨String.toList_injective (List.append_cancel_right he), rfl⟩

end

/-! ## Nodes -/

namespace Filter

/-- A filter of comparisons whose attributes are legible. -/
def Readable : Filter → Prop
  | .objectClasses _ => False
  | .compare attributeName _ _ => Legible attributeName
  | .group _ left right => left.Readable ∧ right.Readable

/-- A filter that grew from a seed by wrapping. -/
inductive GrownFrom (seed : Filter) : Filter → Prop
  | seed : GrownFrom seed seed
  | group {left right : Filter} (hl : GrownFrom seed left) (connective : Connective)
      (hr : right.Readable) : GrownFrom seed (.group connective left right)

theorem chars_group_append (connective : Connective) (left right : Filter) (r : List Char) :
    (group connective left right).chars ++ r =
      connective.opener ++ (left.chars ++ (right.chars ++ ')' :: r)) := by
  simp [chars]

theorem opener_append_inj {c c' : Connective} {r r' : List Char}
    (h : c.opener ++ r = c'.opener ++ r') : c = c' ∧ r = r' := by
  cases c <;> cases c' <;> simp [Connective.opener] at h
  all_goals exact ⟨rfl, h⟩

/-- A leaf and a group differ in how they begin. -/
theorem compare_ne_group {attributeName : String} (h : Legible attributeName)
    (assertion : Assertion) (value : String) (connective : Connective) (left right : Filter)
    (r r' : List Char) : (compare attributeName assertion value).chars ++ r ≠
      (group connective left right).chars ++ r' := by
  intro he
  rw [chars_compare_append, chars_group_append] at he
  cases connective with
  | and =>
    obtain ⟨-, htail⟩ := List.cons.inj he
    exact (h.ne_mark htail).1 rfl
  | or =>
    obtain ⟨-, htail⟩ := List.cons.inj he
    exact (h.ne_mark htail).2 rfl

/-- A readable filter is told by any text that begins with its own. -/
theorem Readable.chars_append_inj {f g : Filter} {r r' : List Char} (hf : f.Readable)
    (hg : g.Readable) (h : f.chars ++ r = g.chars ++ r') : f = g ∧ r = r' := by
  induction f generalizing g r r' with
  | objectClasses classes => exact hf.elim
  | compare a b value =>
    cases g with
    | objectClasses classes => exact hg.elim
    | compare a' b' value' =>
      rw [chars_compare_append, chars_compare_append] at h
      obtain ⟨hkey, hvalue⟩ := append_sign_inj (fun hm => (hf.mem_leafKey hm).2.2 rfl)
        (fun hm => (hg.mem_leafKey hm).2.2 rfl) (List.cons.inj h).2
      obtain ⟨rfl, rfl⟩ := hf.leafKey_inj hg hkey
      obtain ⟨rfl, rfl⟩ := escape_append_inj hvalue
      exact ⟨rfl, rfl⟩
    | group c' left' right' => exact absurd h (compare_ne_group hf b value c' left' right' r r')
  | group c left right ihl ihr =>
    cases g with
    | objectClasses classes => exact hg.elim
    | compare a' b' value' =>
      exact absurd h.symm (compare_ne_group hg b' value' c left right r' r)
    | group c' left' right' =>
      rw [chars_group_append, chars_group_append] at h
      obtain ⟨rfl, hleft⟩ := opener_append_inj h
      obtain ⟨rfl, hright⟩ := ihl hf.1 hg.1 hleft
      obtain ⟨rfl, hrest⟩ := ihr hf.2 hg.2 hright
      exact ⟨rfl, (List.cons.inj hrest).2⟩

/-! ## The seed -/

variable {classes : List String} {f g : Filter}

/-- No opening of a group looks like the beginning of an object class. -/
theorem opener_eq (connective : Connective) :
    ∃ mark, connective.opener = ['(', mark] ∧ mark ≠ 'o' := by
  cases connective with
  | and => exact ⟨'&', rfl, by decide⟩
  | or => exact ⟨'|', rfl, by decide⟩

/-- What grew from several object classes begins like a group. -/
theorem GrownFrom.chars_eq (hclasses : 1 < classes.length)
    (hf : GrownFrom (.objectClasses classes) f) :
    ∃ (connective : Connective) (cs : List Char), f.chars = connective.opener ++ cs := by
  cases hf with
  | seed => exact ⟨.and, _, by rw [chars, if_pos hclasses]; rfl⟩
  | group hl connective hr => exact ⟨connective, _, by simp only [chars, List.append_assoc]; rfl⟩

/-- The object classes by themselves differ from every group around them: a class stands where the
group goes on with another opening. -/
theorem GrownFrom.seed_ne_group (hclasses : classes ≠ [])
    (hf : GrownFrom (.objectClasses classes) f) (connective : Connective) (right : Filter)
    (r r' : List Char) :
    (Filter.objectClasses classes).chars ++ r ≠ (Filter.group connective f right).chars ++ r' := by
  intro he
  rw [chars_group_append] at he
  obtain ⟨name, names, rfl⟩ := List.exists_cons_of_ne_nil hclasses
  obtain ⟨cs, hcs⟩ : ∃ cs, classChars name = '(' :: 'o' :: cs := ⟨_, rfl⟩
  obtain ⟨mark, hmark, hne⟩ := opener_eq connective
  rw [hmark] at he
  by_cases hnames : 1 < (name :: names).length
  · -- Behind their own opening the classes go on with a class, the group with one more opening.
    obtain ⟨c, cs', hc⟩ := hf.chars_eq hnames
    obtain ⟨mark', hmark', hne'⟩ := opener_eq c
    simp only [chars, if_pos hnames, hc, hmark', List.flatMap_cons, hcs, List.cons_append,
      List.nil_append, List.cons.injEq] at he
    exact hne' he.2.2.2.1.symm
  · -- A single class has no opening of its own.
    simp only [chars, if_neg hnames, List.flatMap_cons, hcs, List.cons_append,
      List.cons.injEq] at he
    exact hne he.2.1.symm

/-- What grew from object classes is told by any text that begins with its own. -/
theorem GrownFrom.chars_append_inj (hclasses : classes ≠ []) {r r' : List Char}
    (hf : GrownFrom (.objectClasses classes) f) (hg : GrownFrom (.objectClasses classes) g)
    (h : f.chars ++ r = g.chars ++ r') : f = g ∧ r = r' := by
  induction hf generalizing g r r' with
  | seed =>
    cases hg with
    | seed => exact ⟨rfl, List.append_cancel_left h⟩
    | group hl c hr => exact absurd h (hl.seed_ne_group hclasses c _ r r')
  | @group left right hl c hr ih =>
    cases hg with
    | seed => exact absurd h.symm (hl.seed_ne_group hclasses c right r' r)
    | group hl' c' hr' =>
      rw [chars_group_append, chars_group_append] at h
      obtain ⟨rfl, hleft⟩ := opener_append_inj h
      obtain ⟨rfl, hright⟩ := ih hl' hleft
      obtain ⟨rfl, hrest⟩ := hr.chars_append_inj hr' hright
      exact ⟨rfl, (List.cons.inj hrest).2⟩

/-! ## Brackets -/

/-- The brackets of a filter's text. -/
def brackets : Brackets Char where
  opens c := c == '('
  closes c := c == ')'
  closes_of_opens c h := by simp_all

/-- What stands for itself between brackets brings none. -/
theorem balanced_of_not_mem {cs : List Char} (h : '(' ∉ cs ∧ ')' ∉ cs) : brackets.Balanced cs :=
  Brackets.balanced_of_forall fun c hc => by
    simp only [brackets, beq_eq_false_iff_ne]
    exact ⟨fun e => h.1 (e ▸ hc), fun e => h.2 (e ▸ hc)⟩

theorem enclosed_classChars (name : String) : brackets.Enclosed (classChars name) := by
  have hword : brackets.Balanced "objectclass=".toList := balanced_of_not_mem (by decide)
  have := (hword.append (balanced_of_not_mem (not_mem_escape name))).enclosed
    (x := '(') (y := ')') rfl rfl
  exact this

theorem balanced_classes (classes : List String) :
    brackets.Balanced (classes.flatMap classChars) := by
  induction classes with
  | nil => exact Brackets.balanced_nil
  | cons name names ih => exact (enclosed_classChars name).balanced.append ih

/-- Object classes make one bracketed term. -/
theorem enclosed_objectClasses (hclasses : classes ≠ []) :
    brackets.Enclosed (objectClasses classes).chars := by
  have hmark : brackets.Balanced ['&'] := balanced_of_not_mem (by decide)
  rw [chars]
  split
  · have := (hmark.append (balanced_classes classes)).enclosed (x := '(') (y := ')') rfl rfl
    exact this
  · next hlength =>
    match classes with
    | [name] => simpa using enclosed_classChars name
    | name :: name' :: names => simp at hlength

theorem enclosed_group {left right : Filter} (connective : Connective)
    (hl : brackets.Enclosed left.chars) (hr : brackets.Enclosed right.chars) :
    brackets.Enclosed (group connective left right).chars := by
  have hbody := hl.balanced.append hr.balanced
  have hmark : ∃ mark, connective.opener = ['(', mark] ∧ brackets.Balanced [mark] := by
    cases connective with
    | and => exact ⟨'&', rfl, balanced_of_not_mem (by decide)⟩
    | or => exact ⟨'|', rfl, balanced_of_not_mem (by decide)⟩
  obtain ⟨mark, hopener, hmark⟩ := hmark
  have := (hmark.append hbody).enclosed (x := '(') (y := ')') rfl rfl
  simpa [chars, hopener] using this

theorem Readable.enclosed_chars (hf : f.Readable) : brackets.Enclosed f.chars := by
  induction f with
  | objectClasses classes => exact hf.elim
  | compare a b value =>
    have hkey : brackets.Balanced (leafKey a b) :=
      balanced_of_not_mem ⟨fun hm => (hf.mem_leafKey hm).1 rfl,
        fun hm => (hf.mem_leafKey hm).2.1 rfl⟩
    have hsign : brackets.Balanced ['='] := balanced_of_not_mem (by decide)
    have hbody := hkey.append (hsign.append (balanced_of_not_mem (not_mem_escape value)))
    have := hbody.enclosed (x := '(') (y := ')') rfl rfl
    rw [← List.append_nil (chars _), chars_compare_append]
    simpa using this
  | group c left right ihl ihr => exact enclosed_group c (ihl hf.1) (ihr hf.2)

theorem GrownFrom.enclosed_chars (hclasses : classes ≠ [])
    (hf : GrownFrom (.objectClasses classes) f) : brackets.Enclosed f.chars := by
  induction hf with
  | seed => exact enclosed_objectClasses hclasses
  | group hl c hr ih => exact enclosed_group c ih hr.enclosed_chars

end Filter

end DirectorySearch

/-! ## Filters of expressions -/

variable {α : Type} {leaf : α → Filter}

mutual
theorem Term.readable_filter (hleaf : ∀ a, (leaf a).Readable) :
    ∀ t : Term α, (t.filter leaf).Readable
  | .leaf a => hleaf a
  | .group e => e.readable_filter hleaf

/-- The filter of an expression is readable when those of its comparisons are. -/
theorem Expression.readable_filter (hleaf : ∀ a, (leaf a).Readable) :
    ∀ e : Expression α, (e.filter leaf).Readable
  | .single t => t.readable_filter hleaf
  | .connected e _ t => ⟨e.readable_filter hleaf, t.readable_filter hleaf⟩
end

theorem Expression.grownFrom_narrowed (hleaf : ∀ a, (leaf a).Readable) (seed : Filter) :
    ∀ e : Expression α, Filter.GrownFrom seed (e.narrowed leaf seed)
  | .single t => .group .seed .and (t.readable_filter hleaf)
  | .connected e c t => .group (e.grownFrom_narrowed hleaf seed) c (t.readable_filter hleaf)

theorem grownFrom_topFilter (hleaf : ∀ a, (leaf a).Readable) (seed : Filter)
    (e? : Option (Expression α)) : Filter.GrownFrom seed (topFilter leaf seed e?) := by
  cases e? with
  | none => exact .seed
  | some e => exact e.grownFrom_narrowed hleaf seed

/-! ## Filters of drafts -/

namespace DirectorySearch

variable {mapping : Mapping}

theorem readable_leafOf (h : ∀ name ∈ mapping.attributes.values, Legible name) (c : Criterion) :
    (leafOf mapping.attributes c).Readable := by
  unfold leafOf
  cases hf : leafFor? mapping.attributes c with
  | none => exact ⟨by simp, by simp⟩
  | some f =>
    obtain ⟨_, name, _, _, hname, rfl⟩ := leafFor?_eq_some hf
    exact h name (List.mem_map_of_mem (f := (·.2)) (OrderedMap.mem_entries_of_get? hname))

namespace Draft

variable {d : Draft}

/-- The filter of a draft grew from the object classes of its mapping. -/
theorem grownFrom_run (h : create mapping = .ok d)
    (hlegible : ∀ name ∈ mapping.attributes.values, Legible name) (calls : List Call) :
    ∃ f, Filter.GrownFrom mapping.seed f ∧ (d.run calls).filter? = some f ∧
      (d.run calls).filterText.toList = f.chars := by
  obtain ⟨-, ⟨o, -, hframes⟩, -, -⟩ := tracks_run h calls
  obtain ⟨hfilter, htext⟩ := filter?_of_holds hframes
  refine ⟨_, grownFrom_topFilter (readable_leafOf hlegible) mapping.seed o.topLevel?, hfilter, ?_⟩
  rw [htext]
  exact String.toList_ofList

/-- Where attributes are legible, two runs that give the same text give the same filter, the text is
one bracketed term, and every value comes back from its escape. -/
theorem readable_run (h : create mapping = .ok d)
    (hlegible : ∀ name ∈ mapping.attributes.values, Legible name) (calls calls' : List Call) :
    ((d.run calls).filterText = (d.run calls').filterText →
      (d.run calls).filter? = (d.run calls').filter?) ∧
    Filter.brackets.Enclosed (d.run calls).filterText.toList ∧
    ∀ value, unescape? (escape value) = some value := by
  have hclasses := (create_eq_ok h).1
  obtain ⟨f, hf, hfilter, htext⟩ := grownFrom_run h hlegible calls
  obtain ⟨f', hf', hfilter', htext'⟩ := grownFrom_run h hlegible calls'
  refine ⟨fun heq => ?_, ?_, unescape?_escape⟩
  · have hchars : f.chars ++ [] = f'.chars ++ [] := by rw [← htext, ← htext', heq]
    rw [hfilter, hfilter', (hf.chars_append_inj hclasses hf' hchars).1]
  · rw [htext]
    exact hf.enclosed_chars hclasses

/-- A value that tries to close its node and to open another stays in its place. -/
theorem readable_run_forged : ∃ d, create .people = .ok d ∧
    (∀ name ∈ Mapping.people.attributes.values, Legible name) ∧
    let forged : List Call := [.add (.comparing "name" .equal (.string "Ann)(mail=*"))]
    let calls : List Call :=
      [.add (.comparing "name" .equal (.string "Ann")),
        .add ((Criterion.comparing "mail" .equal (.string "*")).withLogical .and)]
    (d.run forged).filterText =
        "(&(&(objectclass=person)(objectclass=top))(cn=Ann\\29\\28mail=*))" ∧
      ((d.run forged).filterText = (d.run calls).filterText →
        (d.run forged).filter? = (d.run calls).filter?) ∧
      Filter.brackets.Enclosed (d.run forged).filterText.toList ∧
      ∀ value, unescape? (escape value) = some value := by
  have h : create .people = .ok _ := rfl
  exact ⟨_, h, by decide, by decide, readable_run h (by decide) _ _⟩

end Draft

end DirectorySearch

end QueryCriteria
