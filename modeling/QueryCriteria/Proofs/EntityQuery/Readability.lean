import Mathlib.Data.List.Chain
import QueryCriteria.Proofs.EntityQuery.Alphabet
import QueryCriteria.Proofs.EntityQuery.WhereClause
/-!
# The readability of clauses

The clauses of a query can be read back from its text. A name or a path is a run of characters that
nothing behind it goes on with, and the words and signs between them are told apart by their
beginnings, with one exception: "join" begins "join fetch", where the name of the root tells, since
a dot follows it.
-/

namespace QueryCriteria.EntityQuery

/-! ## Predicates -/

/-- A predicate as drafts write them, over a path that can be told from what follows it. -/
inductive Predicate.Legible : Predicate → Prop
  | compares {path name : String} {c : Comparison} (hpath : AsciiPath path) (hne : path ≠ "")
    (hc : c.shape = .binary) (hname : AsciiName name) : Legible ⟨path, c, some name⟩
  | tests {path : String} {c : Comparison} (hpath : AsciiPath path) (hne : path ≠ "")
    (hc : c.shape = .unary) : Legible ⟨path, c, none⟩
  | contains {path name : String} {c : Comparison} (hpath : AsciiPath path)
    (hc : c.shape = .membership) (hname : AsciiName name) : Legible ⟨path, c, some name⟩

/-- What stands behind the path of a predicate that begins with it. -/
def behindPath (c : Comparison) : List Char :=
  match c.shape with
  | .binary => ' ' :: (binarySymbol c).toList ++ [' ', ':']
  | _ => ' ' :: (testKeyword c).toList

/-- What stands between the parameter of a membership and the path. -/
def beforePath (c : Comparison) : List Char := ' ' :: (membershipKeyword c).toList ++ [' ']

theorem prefixFree_behindPath : PrefixFree behindPath
    [.equal, .notEqual, .greaterThan, .greaterThanOrEqual, .lessThan, .lessThanOrEqual, .like,
      .notLike, .isNull, .isNotNull, .isEmpty, .isNotEmpty] := by
  unfold PrefixFree
  decide

theorem prefixFree_beforePath : PrefixFree beforePath [.memberOf, .notMemberOf] := by
  unfold PrefixFree
  decide

theorem behindPath_append_inj {c c' : Comparison} {r r' : List Char}
    (hc : c.shape = .binary ∨ c.shape = .unary) (hc' : c'.shape = .binary ∨ c'.shape = .unary)
    (h : behindPath c ++ r = behindPath c' ++ r') : c = c' ∧ r = r' := by
  have hmem {c : Comparison} (hc : c.shape = .binary ∨ c.shape = .unary) :
      c ∈ [.equal, .notEqual, .greaterThan, .greaterThanOrEqual, .lessThan, .lessThanOrEqual, .like,
        .notLike, .isNull, .isNotNull, .isEmpty, .isNotEmpty] := by
    cases c <;> simp [Comparison.shape] at hc ⊢
  exact prefixFree_behindPath.append_inj (hmem hc) (hmem hc') h

theorem beforePath_append_inj {c c' : Comparison} {r r' : List Char}
    (hc : c.shape = .membership) (hc' : c'.shape = .membership)
    (h : beforePath c ++ r = beforePath c' ++ r') : c = c' ∧ r = r' := by
  have hmem {c : Comparison} (hc : c.shape = .membership) : c ∈ [.memberOf, .notMemberOf] := by
    cases c <;> simp [Comparison.shape] at hc ⊢
  exact prefixFree_beforePath.append_inj (hmem hc) (hmem hc') h

section
variable {path name : String} {c : Comparison} (r : List Char)

theorem text_compares (hc : c.shape = .binary) :
    (⟨path, c, some name⟩ : Predicate).text.toList ++ r =
      path.toList ++ (behindPath c ++ (name.toList ++ r)) := by
  simp [Predicate.text, behindPath, hc]

theorem text_tests (hc : c.shape = .unary) :
    (⟨path, c, none⟩ : Predicate).text.toList ++ r = path.toList ++ (behindPath c ++ r) := by
  simp [Predicate.text, behindPath, hc]

theorem text_contains (hc : c.shape = .membership) :
    (⟨path, c, some name⟩ : Predicate).text.toList ++ r =
      ':' :: (name.toList ++ (beforePath c ++ (path.toList ++ r))) := by
  simp [Predicate.text, beforePath, hc]

end

theorem stops_behindPath (c : Comparison) (r : List Char) : Stops isPathChar (behindPath c ++ r) := by
  unfold behindPath
  split <;> exact stops_cons.2 (by decide)

/-- A path and the words behind it are told together. -/
theorem lead_append_inj {path path' : String} {c c' : Comparison} {r r' : List Char}
    (hpath : AsciiPath path) (hpath' : AsciiPath path') (hc : c.shape = .binary ∨ c.shape = .unary)
    (hc' : c'.shape = .binary ∨ c'.shape = .unary)
    (h : path.toList ++ (behindPath c ++ r) = path'.toList ++ (behindPath c' ++ r')) :
    path = path' ∧ c = c' ∧ r = r' := by
  obtain ⟨rfl, hbehind⟩ :=
    path_append_inj hpath hpath' (stops_behindPath _ _) (stops_behindPath _ _) h
  exact ⟨rfl, behindPath_append_inj hc hc' hbehind⟩

theorem exists_path_head {path : String} (hpath : AsciiPath path) (hne : path ≠ "") (r : List Char) :
    ∃ c cs, path.toList ++ r = c :: cs ∧ isPathChar c = true := by
  obtain ⟨c, cs, hcs⟩ := List.exists_cons_of_ne_nil (l := path.toList) (by simpa using hne)
  exact ⟨c, cs ++ r, by simp [hcs], hpath c (by simp [hcs])⟩

theorem path_ne_colon {path : String} (hpath : AsciiPath path) (hne : path ≠ "") (r r' : List Char) :
    path.toList ++ r ≠ ':' :: r' := by
  obtain ⟨c, cs, heq, hc⟩ := exists_path_head hpath hne r
  rw [heq]
  rintro h
  obtain ⟨rfl, -⟩ := List.cons.inj h
  cases hc

namespace Predicate.Legible

variable {p q : Predicate} {r r' : List Char}

/-- A predicate begins with a path, or with the colon of a parameter. -/
theorem exists_head (h : p.Legible) (r : List Char) :
    ∃ c cs, p.text.toList ++ r = c :: cs ∧ (isPathChar c = true ∨ c = ':') := by
  cases h with
  | compares hpath hne hc hname =>
    rw [text_compares r hc]
    obtain ⟨c, cs, heq, hchar⟩ := exists_path_head hpath hne _
    exact ⟨c, cs, heq, .inl hchar⟩
  | tests hpath hne hc =>
    rw [text_tests r hc]
    obtain ⟨c, cs, heq, hchar⟩ := exists_path_head hpath hne _
    exact ⟨c, cs, heq, .inl hchar⟩
  | contains hpath hc hname => exact ⟨':', _, text_contains r hc, .inr rfl⟩

/-- A predicate is told by its text, where nothing goes on with the path it may end in. -/
theorem text_append_inj (hp : p.Legible) (hq : q.Legible) (hr : Stops isPathChar r)
    (hr' : Stops isPathChar r') (h : p.text.toList ++ r = q.text.toList ++ r') : p = q ∧ r = r' := by
  -- The first character tells whether a path or a parameter leads; the words behind it tell the
  -- comparison, and with it what stands behind the words.
  cases hp with
  | compares hpath hne hc hname =>
    rw [text_compares r hc] at h
    cases hq with
    | compares hpath' hne' hc' hname' =>
      rw [text_compares r' hc'] at h
      obtain ⟨rfl, rfl, hend⟩ := lead_append_inj hpath hpath' (.inl hc) (.inl hc') h
      obtain ⟨rfl, rfl⟩ := name_append_inj hname hname' (stops_name hr) (stops_name hr') hend
      exact ⟨rfl, rfl⟩
    | tests hpath' hne' hc' =>
      rw [text_tests r' hc'] at h
      obtain ⟨-, rfl, -⟩ := lead_append_inj hpath hpath' (.inl hc) (.inr hc') h
      cases hc.symm.trans hc'
    | contains hpath' hc' hname' =>
      rw [text_contains r' hc'] at h
      exact absurd h (path_ne_colon hpath hne _ _)
  | tests hpath hne hc =>
    rw [text_tests r hc] at h
    cases hq with
    | compares hpath' hne' hc' hname' =>
      rw [text_compares r' hc'] at h
      obtain ⟨-, rfl, -⟩ := lead_append_inj hpath hpath' (.inr hc) (.inl hc') h
      cases hc.symm.trans hc'
    | tests hpath' hne' hc' =>
      rw [text_tests r' hc'] at h
      obtain ⟨rfl, rfl, rfl⟩ := lead_append_inj hpath hpath' (.inr hc) (.inr hc') h
      exact ⟨rfl, rfl⟩
    | contains hpath' hc' hname' =>
      rw [text_contains r' hc'] at h
      exact absurd h (path_ne_colon hpath hne _ _)
  | contains hpath hc hname =>
    rw [text_contains r hc] at h
    cases hq with
    | compares hpath' hne' hc' hname' =>
      rw [text_compares r' hc'] at h
      exact absurd h.symm (path_ne_colon hpath' hne' _ _)
    | tests hpath' hne' hc' =>
      rw [text_tests r' hc'] at h
      exact absurd h.symm (path_ne_colon hpath' hne' _ _)
    | contains hpath' hc' hname' =>
      rw [text_contains r' hc'] at h
      have hstops (c : Comparison) (r : List Char) : Stops isNameChar (beforePath c ++ r) :=
        stops_cons.2 (by decide)
      obtain ⟨rfl, hbefore⟩ :=
        name_append_inj hname hname' (hstops _ _) (hstops _ _) (List.cons.inj h).2
      obtain ⟨rfl, hend⟩ := beforePath_append_inj hc hc' hbefore
      obtain ⟨rfl, rfl⟩ := path_append_inj hpath hpath' hr hr' hend
      exact ⟨rfl, rfl⟩

end Predicate.Legible

/-! ## Where clauses -/

/-- The words and brackets of a where clause, and the words that end it. -/
def signs : List String := [" where ", " and ", " or ", "(", ")", " order by "]

theorem prefixFree_signs : PrefixFree String.toList signs := by
  unfold PrefixFree
  decide

/-- A sign does not begin like a predicate, and nothing goes on with a path into it. -/
theorem exists_sign_head {sign : String} (h : sign ∈ signs) (r : List Char) :
    ∃ c cs, sign.toList ++ r = c :: cs ∧ isPathChar c = false ∧ c ≠ ':' := by
  revert sign
  simp only [signs, List.forall_mem_cons, List.not_mem_nil, false_implies, implies_true, and_true]
  refine ⟨?_, ?_, ?_, ?_, ?_, ?_⟩ <;> exact ⟨_, _, rfl, by decide, by decide⟩

namespace Fragment

/-- A fragment whose predicate, if it is one, is legible. -/
def Legible (f : Fragment) : Prop := ∀ p, f = .predicate p → p.Legible

variable {f g : Fragment} {r r' : List Char}

theorem mem_signs (h : f.predicate? = none) : f.text ∈ signs := by
  cases f with
  | predicate p => cases h
  | _ => simp [Fragment.text, signs]

theorem eq_of_text_eq (hf : f.predicate? = none) (hg : g.predicate? = none)
    (h : f.text = g.text) : f = g := by
  cases f with
  | predicate p => cases hf
  | _ =>
    cases g with
    | predicate q => cases hg
    | _ =>
      first
      | rfl
      | exact absurd h (by decide)

theorem eq_predicate {p : Predicate} (h : f.predicate? = some p) : f = .predicate p := by
  cases f <;> cases h
  rfl

theorem sign_ne_predicate {sign : String} {p : Predicate} (hsign : sign ∈ signs) (hp : p.Legible)
    (r r' : List Char) : sign.toList ++ r ≠ p.text.toList ++ r' := by
  obtain ⟨c, cs, hcs, hpath, hcolon⟩ := exists_sign_head hsign r
  obtain ⟨c', cs', hcs', hc'⟩ := hp.exists_head r'
  rw [hcs, hcs']
  intro h
  obtain ⟨rfl, -⟩ := List.cons.inj h
  rcases hc' with hc' | hc'
  · rw [hpath] at hc'
    cases hc'
  · exact hcolon hc'

/-- A fragment is told by its text, where nothing goes on with a predicate. -/
theorem text_append_inj (hf : f.Legible) (hg : g.Legible)
    (hr : f.predicate? ≠ none → Stops isPathChar r)
    (hr' : g.predicate? ≠ none → Stops isPathChar r')
    (h : f.text.toList ++ r = g.text.toList ++ r') : f = g ∧ r = r' := by
  cases hfp : f.predicate? with
  | none =>
    cases hgp : g.predicate? with
    | none =>
      obtain ⟨htext, hrest⟩ := prefixFree_signs.append_inj (mem_signs hfp) (mem_signs hgp) h
      exact ⟨eq_of_text_eq hfp hgp htext, hrest⟩
    | some q =>
      obtain rfl := eq_predicate hgp
      exact absurd h (sign_ne_predicate (mem_signs hfp) (hg q rfl) r r')
  | some p =>
    obtain rfl := eq_predicate hfp
    cases hgp : g.predicate? with
    | none => exact absurd h.symm (sign_ne_predicate (mem_signs hgp) (hf p rfl) r' r)
    | some q =>
      obtain rfl := eq_predicate hgp
      obtain ⟨rfl, hrest⟩ := (hf p rfl).text_append_inj (hg q rfl) (hr nofun) (hr' nofun) h
      exact ⟨rfl, hrest⟩

end Fragment

/-- The characters of fragments. -/
def clauseChars (fs : List Fragment) : List Char := fs.flatMap fun f => f.text.toList

/-- Nothing follows a where clause, or the orders do. -/
def EndsClause (cs : List Char) : Prop := cs = [] ∨ ∃ rest, cs = " order by ".toList ++ rest

/-- No two predicates stand side by side. -/
def Apart (fs : List Fragment) : Prop :=
  fs.IsChain fun f g => f.predicate? = none ∨ g.predicate? = none

theorem Apart.cons_sign {fs : List Fragment} {sign : Fragment} (hfs : Apart fs)
    (hsign : sign.predicate? = none) : Apart (sign :: fs) :=
  List.isChain_cons.2 ⟨fun _ _ => .inl hsign, hfs⟩

/-- A word or bracket keeps predicates apart. -/
theorem Apart.append_sign {fs gs : List Fragment} {sign : Fragment} (hfs : Apart fs)
    (hgs : Apart gs) (hsign : sign.predicate? = none) : Apart (fs ++ sign :: gs) := by
  refine List.isChain_append.2 ⟨hfs, hgs.cons_sign hsign, ?_⟩
  rintro f - g hg
  obtain rfl : sign = g := by simpa using hg
  exact .inr hsign

/-- Fragments that can be told one by one: the predicates are legible, and no two of them stand side
by side. -/
structure Separate (fs : List Fragment) : Prop where
  legible : ∀ f ∈ fs, f.Legible
  apart : Apart fs

theorem EndsClause.stops {cs : List Char} (h : EndsClause cs) : Stops isPathChar cs := by
  rcases h with rfl | ⟨rest, rfl⟩
  · exact stops_nil _
  · exact stops_cons.2 (by decide)

/-- Nothing goes on with a predicate that fragments begin with. -/
theorem Separate.stops {f : Fragment} {fs : List Fragment} {cs : List Char}
    (h : Separate (f :: fs)) (hf : f.predicate? ≠ none) (hcs : EndsClause cs) :
    Stops isPathChar (clauseChars fs ++ cs) := by
  cases fs with
  | nil => exact hcs.stops
  | cons g fs =>
    have hg : g.predicate? = none := (List.isChain_cons_cons.1 h.apart).1.resolve_left hf
    obtain ⟨c, rest, heq, hc, -⟩ :=
      exists_sign_head (Fragment.mem_signs hg) (clauseChars fs ++ cs)
    rw [clauseChars, List.flatMap_cons, List.append_assoc]
    exact heq ▸ stops_cons.2 hc

theorem EndsClause.ne_fragment {cs : List Char} (h : EndsClause cs) {f : Fragment}
    (hf : f.Legible) (r : List Char) : cs ≠ f.text.toList ++ r := by
  have horder : " order by " ∈ signs := by decide
  rintro rfl
  cases hfp : f.predicate? with
  | some p =>
    obtain rfl := Fragment.eq_predicate hfp
    rcases h with hnil | ⟨rest, heq⟩
    · obtain ⟨c, cs, hcs, -⟩ := (hf p rfl).exists_head r
      cases hcs.symm.trans hnil
    · exact Fragment.sign_ne_predicate horder (hf p rfl) rest r heq.symm
  | none =>
    have hsign := Fragment.mem_signs hfp
    rcases h with hnil | ⟨rest, heq⟩
    · obtain ⟨c, cs, hcs, -⟩ := exists_sign_head hsign r
      cases hcs.symm.trans hnil
    · obtain ⟨htext, -⟩ := prefixFree_signs.append_inj hsign horder heq
      cases f with
      | predicate p => cases hfp
      | _ => simp [Fragment.text] at htext

/-- A where clause is told by its text. -/
theorem clauseChars_append_inj {fs gs : List Fragment} {cs cs' : List Char} (hfs : Separate fs)
    (hgs : Separate gs) (hcs : EndsClause cs) (hcs' : EndsClause cs')
    (h : clauseChars fs ++ cs = clauseChars gs ++ cs') : fs = gs ∧ cs = cs' := by
  induction fs generalizing gs with
  | nil =>
    cases gs with
    | nil => exact ⟨rfl, h⟩
    | cons g gs =>
      rw [clauseChars, clauseChars, List.flatMap_cons, List.append_assoc] at h
      exact absurd h (hcs.ne_fragment (hgs.legible g (.head _)) _)
  | cons f fs ih =>
    cases gs with
    | nil =>
      rw [clauseChars, clauseChars, List.flatMap_cons, List.append_assoc] at h
      exact absurd h.symm (hcs'.ne_fragment (hfs.legible f (.head _)) _)
    | cons g gs =>
      rw [clauseChars, clauseChars, List.flatMap_cons, List.flatMap_cons, List.append_assoc,
        List.append_assoc] at h
      obtain ⟨rfl, hrest⟩ := Fragment.text_append_inj (hfs.legible f (.head _))
        (hgs.legible g (.head _)) (fun hf => hfs.stops hf hcs) (fun hg => hgs.stops hg hcs') h
      have htail {f : Fragment} {fs : List Fragment} (h : Separate (f :: fs)) : Separate fs :=
        ⟨fun f hf => h.legible f (.tail _ hf), (List.isChain_cons.1 h.apart).2⟩
      obtain ⟨rfl, hend⟩ := ih (htail hfs) (htail hgs) hrest
      exact ⟨rfl, hend⟩

/-! ## Joins -/

/-- A join from the root over a path, as calls add them. -/
inductive JoinClause.Legible : JoinClause → Prop
  | mk {operator : Join} {operand : String} (hoperator : Operator.isDefined operator = true)
    (hoperand : AsciiPath operand) : Legible ⟨operator, none, operand, none⟩

section
variable {rootAlias : String} {r r' : List Char}

/-- The keyword of a join without the word "fetch", with the spaces around it. -/
def joinStem : Join → String
  | .left | .leftFetch => " left join "
  | _ => " join "

/-- The word "fetch" with the space behind it, where a join has it. -/
def fetchWord : Join → String
  | .innerFetch | .leftFetch => "fetch "
  | _ => ""

theorem text_join {operator : Join} (h : Operator.isDefined operator = true) (operand : String)
    (r : List Char) : (JoinClause.text rootAlias ⟨operator, none, operand, none⟩).toList ++ r =
      (joinStem operator).toList ++ ((fetchWord operator).toList ++ (rootAlias.toList ++
        '.' :: (operand.toList ++ r))) := by
  cases operator with
  | undefined => cases h
  | _ => simp [JoinClause.text, joinStem, fetchWord, Join.keyword?]

theorem prefixFree_joinStem : PrefixFree String.toList [" join ", " left join "] := by
  unfold PrefixFree
  decide

/-- A name in front of a dot is not the word "fetch" in front of a space. -/
theorem name_ne_fetch (h : AsciiName rootAlias) (r r' : List Char) :
    rootAlias.toList ++ '.' :: r ≠ "fetch ".toList ++ r' := by
  have hsplit : "fetch ".toList ++ r' = "fetch".toList ++ ' ' :: r' := rfl
  have hfetch : AsciiName "fetch" := by decide
  rw [hsplit]
  intro heq
  obtain ⟨-, hrest⟩ :=
    name_append_inj h hfetch (stops_cons.2 (by decide)) (stops_cons.2 (by decide)) heq
  cases hrest

/-- Whether a join fetches is told in front of the name of the root. -/
theorem fetchWord_append_inj (h : AsciiName rootAlias) {operator operator' : Join}
    (heq : (fetchWord operator).toList ++ (rootAlias.toList ++ '.' :: r) =
      (fetchWord operator').toList ++ (rootAlias.toList ++ '.' :: r')) :
    fetchWord operator = fetchWord operator' ∧ r = r' := by
  have hword (operator : Join) : fetchWord operator = "" ∨ fetchWord operator = "fetch " := by
    cases operator <;> simp [fetchWord]
  rcases hword operator with hw | hw <;> rcases hword operator' with hw' | hw' <;>
    rw [hw, hw'] at heq ⊢
  · exact ⟨rfl, (List.cons.inj (List.append_cancel_left heq)).2⟩
  · exact absurd heq (name_ne_fetch h _ _)
  · exact absurd heq.symm (name_ne_fetch h _ _)
  · exact ⟨rfl, (List.cons.inj (List.append_cancel_left (List.append_cancel_left heq))).2⟩

namespace JoinClause.Legible

variable {j k : JoinClause}

/-- A join is told by its text, where nothing goes on with its path. -/
theorem text_append_inj (hroot : AsciiName rootAlias) (hj : j.Legible) (hk : k.Legible)
    (hr : Stops isPathChar r) (hr' : Stops isPathChar r')
    (h : (j.text rootAlias).toList ++ r = (k.text rootAlias).toList ++ r') : j = k ∧ r = r' := by
  obtain @⟨operator, operand, hoperator, hoperand⟩ := hj
  obtain @⟨operator', operand', hoperator', hoperand'⟩ := hk
  have hstem (operator : Join) : joinStem operator ∈ [" join ", " left join "] := by
    cases operator <;> simp [joinStem]
  rw [text_join hoperator, text_join hoperator'] at h
  -- The keywords begin one another, but "fetch" is told from the name of the root by the dot.
  obtain ⟨hleft, hlead⟩ := prefixFree_joinStem.append_inj (hstem _) (hstem _) h
  obtain ⟨hfetch, hpath⟩ := fetchWord_append_inj hroot hlead
  obtain ⟨rfl, rfl⟩ := path_append_inj hoperand hoperand' hr hr' hpath
  have hsame : operator = operator' := by
    revert hoperator hoperator' hleft hfetch
    cases operator <;> cases operator' <;> decide
  exact ⟨by rw [hsame], rfl⟩

/-- The text of a join begins with a space and the first letter of "join" or "left". -/
theorem exists_head (hj : j.Legible) (r : List Char) :
    ∃ c cs, (j.text rootAlias).toList ++ r = ' ' :: c :: cs ∧ (c = 'j' ∨ c = 'l') := by
  obtain @⟨operator, operand, hoperator, hoperand⟩ := hj
  rw [text_join hoperator]
  cases operator with
  | left | leftFetch => exact ⟨'l', _, rfl, .inr rfl⟩
  | _ => exact ⟨'j', _, rfl, .inl rfl⟩

end JoinClause.Legible

/-- The characters of joins. -/
def joinChars (rootAlias : String) (js : List JoinClause) : List Char :=
  js.flatMap fun j => (j.text rootAlias).toList

/-- Nothing follows the joins, or a where clause or the orders do. -/
def EndsJoins (cs : List Char) : Prop :=
  ∀ c ∈ cs.head?, c = ' ' ∧ ∀ c' ∈ cs.tail.head?, c' = 'w' ∨ c' = 'o'

theorem EndsJoins.stops {cs : List Char} (h : EndsJoins cs) : Stops isPathChar cs := by
  intro c hc
  rw [(h c hc).1]
  decide

theorem EndsJoins.ne_join {cs : List Char} (h : EndsJoins cs) {j : JoinClause} (hj : j.Legible)
    (r : List Char) : cs ≠ (j.text rootAlias).toList ++ r := by
  obtain ⟨c, rest, heq, hc⟩ := hj.exists_head r
  rw [heq]
  rintro rfl
  have hends : c = 'w' ∨ c = 'o' := (h ' ' rfl).2 c rfl
  rcases hc with rfl | rfl <;> exact absurd hends (by decide)

/-- Joins are told by their text. -/
theorem joinChars_append_inj (hroot : AsciiName rootAlias) {js ks : List JoinClause}
    {cs cs' : List Char} (hjs : ∀ j ∈ js, j.Legible) (hks : ∀ k ∈ ks, k.Legible)
    (hcs : EndsJoins cs) (hcs' : EndsJoins cs')
    (h : joinChars rootAlias js ++ cs = joinChars rootAlias ks ++ cs') : js = ks ∧ cs = cs' := by
  have hstops {js : List JoinClause} {cs : List Char} (hjs : ∀ j ∈ js, j.Legible)
      (hcs : EndsJoins cs) : Stops isPathChar (joinChars rootAlias js ++ cs) := by
    cases js with
    | nil => exact hcs.stops
    | cons j js =>
      rw [joinChars, List.flatMap_cons, List.append_assoc]
      obtain ⟨c, rest, heq, -⟩ := (hjs j (.head _)).exists_head (joinChars rootAlias js ++ cs)
      exact heq ▸ stops_cons.2 (by decide)
  induction js generalizing ks with
  | nil =>
    cases ks with
    | nil => exact ⟨rfl, h⟩
    | cons k ks =>
      rw [joinChars, joinChars, List.flatMap_cons, List.append_assoc] at h
      exact absurd h (hcs.ne_join (hks k (.head _)) _)
  | cons j js ih =>
    cases ks with
    | nil =>
      rw [joinChars, joinChars, List.flatMap_cons, List.append_assoc] at h
      exact absurd h.symm (hcs'.ne_join (hjs j (.head _)) _)
    | cons k ks =>
      obtain ⟨hj, hjs'⟩ := List.forall_mem_cons.1 hjs
      obtain ⟨hk, hks'⟩ := List.forall_mem_cons.1 hks
      rw [joinChars, joinChars, List.flatMap_cons, List.flatMap_cons, List.append_assoc,
        List.append_assoc] at h
      obtain ⟨rfl, hrest⟩ := hj.text_append_inj hroot hk (hstops hjs' hcs) (hstops hks' hcs') h
      obtain ⟨rfl, hend⟩ := ih hjs' hks' hrest
      exact ⟨rfl, hend⟩

/-! ## Orders -/

/-- An order over a path, as calls add them. -/
structure OrderClause.Legible (o : OrderClause) : Prop where
  direction : Operator.isDefined o.direction = true
  operand : AsciiPath o.operand

/-- The word for a direction, with the space before it. -/
def directionWord : Direction → String
  | .descending => " desc"
  | _ => " asc"

theorem prefixFree_directionWord : PrefixFree String.toList [" asc", " desc"] := by
  unfold PrefixFree
  decide

theorem text_order {o : OrderClause} (h : o.Legible) (r : List Char) :
    (o.text rootAlias).toList ++ r =
      rootAlias.toList ++ '.' :: (o.operand.toList ++ ((directionWord o.direction).toList ++ r)) := by
  obtain ⟨operand, direction⟩ := o
  have hdirection := h.direction
  cases direction with
  | undefined => cases hdirection
  | _ => simp [OrderClause.text, directionWord, Direction.keyword?]

/-- An order is told by its text. -/
theorem OrderClause.Legible.text_append_inj {o p : OrderClause} (ho : o.Legible) (hp : p.Legible)
    (h : (o.text rootAlias).toList ++ r = (p.text rootAlias).toList ++ r') : o = p ∧ r = r' := by
  have hstops (d : Direction) (r : List Char) :
      Stops isPathChar ((directionWord d).toList ++ r) := by
    cases d <;> exact stops_cons.2 (by decide)
  have hword (d : Direction) : directionWord d ∈ [" asc", " desc"] := by
    cases d <;> simp [directionWord]
  rw [text_order ho, text_order hp] at h
  obtain ⟨hoperand, hrest⟩ := path_append_inj ho.operand hp.operand (hstops _ _) (hstops _ _)
    (List.cons.inj (List.append_cancel_left h)).2
  obtain ⟨hdirection, hend⟩ := prefixFree_directionWord.append_inj (hword _) (hword _) hrest
  have hsame : o.direction = p.direction := by
    have hdefined := ho.direction
    have hdefined' := hp.direction
    revert hdefined hdefined' hdirection
    cases o.direction <;> cases p.direction <;> decide
  obtain ⟨operand, direction⟩ := o
  obtain ⟨operand', direction'⟩ := p
  obtain rfl : operand = operand' := hoperand
  obtain rfl : direction = direction' := hsame
  exact ⟨rfl, hend⟩

/-- The characters of orders behind the first. -/
def orderChars (rootAlias : String) (os : List OrderClause) : List Char :=
  os.flatMap fun o => ", ".toList ++ (o.text rootAlias).toList

theorem ordersText_cons (o : OrderClause) (os : List OrderClause) :
    (ordersText rootAlias (o :: os)).toList =
      " order by ".toList ++ ((o.text rootAlias).toList ++ orderChars rootAlias os) := by
  have hjoined : (String.intercalate ", " ((o :: os).map (OrderClause.text rootAlias))).toList =
      (o.text rootAlias).toList ++ orderChars rootAlias os := by
    induction os generalizing o with
    | nil => simp [orderChars]
    | cons p os ih =>
      rw [List.map_cons, List.map_cons, String.intercalate_cons_cons, String.toList_append,
        String.toList_append, ← List.map_cons, ih, orderChars, orderChars, List.flatMap_cons]
      simp only [List.append_assoc]
  rw [ordersText, String.toList_append, hjoined]
  exact nofun

theorem orderChars_inj {os ps : List OrderClause} (hos : ∀ o ∈ os, o.Legible)
    (hps : ∀ p ∈ ps, p.Legible) (h : orderChars rootAlias os = orderChars rootAlias ps) :
    os = ps := by
  induction os generalizing ps with
  | nil =>
    cases ps with
    | nil => rfl
    | cons p ps => cases h
  | cons o os ih =>
    cases ps with
    | nil => cases h
    | cons p ps =>
      obtain ⟨ho, hos'⟩ := List.forall_mem_cons.1 hos
      obtain ⟨hp, hps'⟩ := List.forall_mem_cons.1 hps
      rw [orderChars, orderChars, List.flatMap_cons, List.flatMap_cons, List.append_assoc,
        List.append_assoc] at h
      obtain ⟨rfl, hrest⟩ := ho.text_append_inj hp (List.append_cancel_left h)
      rw [ih hos' hps' hrest]

/-- Orders are told by their text. -/
theorem ordersText_inj {os ps : List OrderClause} (hos : ∀ o ∈ os, o.Legible)
    (hps : ∀ p ∈ ps, p.Legible)
    (h : (ordersText rootAlias os).toList = (ordersText rootAlias ps).toList) : os = ps := by
  cases os with
  | nil =>
    cases ps with
    | nil => rfl
    | cons p ps =>
      rw [ordersText_cons] at h
      cases h
  | cons o os =>
    rw [ordersText_cons] at h
    cases ps with
    | nil => cases h
    | cons p ps =>
      obtain ⟨ho, hos'⟩ := List.forall_mem_cons.1 hos
      obtain ⟨hp, hps'⟩ := List.forall_mem_cons.1 hps
      rw [ordersText_cons] at h
      obtain ⟨rfl, hrest⟩ := ho.text_append_inj hp (List.append_cancel_left h)
      rw [orderChars_inj hos' hps' hrest]

theorem endsClause_ordersText (rootAlias : String) (os : List OrderClause) :
    EndsClause (ordersText rootAlias os).toList := by
  cases os with
  | nil => exact .inl rfl
  | cons o os => exact .inr ⟨_, ordersText_cons o os⟩

end

end QueryCriteria.EntityQuery
