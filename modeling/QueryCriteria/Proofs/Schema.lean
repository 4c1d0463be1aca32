import Mathlib.Data.List.Induction
import Mathlib.Data.List.Nodup
import QueryCriteria.Schema.Toml
/-!
# Registration of entities

A schema holds one entity for each simple name, the last that was registered under it, in the place
of the first (`Schema.registers_last`). Declarations make a schema when every entity has a name that
is not blank and no two have the same simple name; otherwise the first of them that has not decides
why not.
-/

namespace QueryCriteria.Schema

variable {before es : List Entity} {e : Entity} {fault : Fault}

/-! ## Registration -/

/-- The last of some entities that a simple or qualified name may stand for. -/
def last? (es : List Entity) (name : String) : Option Entity :=
  (es.filter fun e => e.simpleName = QueryCriteria.simpleName name).getLast?

theorem ofList_concat (es : List Entity) (e : Entity) :
    ofList (es ++ [e]) = (ofList es).insert e :=
  List.foldl_concat ..

/-- An entity is found by its simple name once it is registered, and others as before. -/
theorem entity?_insert (s : Schema) (e : Entity) (name : String) : (s.insert e).entity? name =
    if e.simpleName = QueryCriteria.simpleName name then some e else s.entity? name :=
  OrderedMap.get?_insert ..

theorem entity?_ofList (es : List Entity) (name : String) :
    (ofList es).entity? name = last? es name := by
  induction es using List.reverseRecOn with
  | nil => rfl
  | append_singleton es e ih =>
    rw [ofList_concat, entity?_insert, ih, last?, last?, List.filter_append]
    split
    · next h => simp [h]
    · next h => simp [h]

/-- Simple names stand in the order of their first registration. -/
theorem keys_ofList (es : List Entity) :
    (ofList es).entities.keys = (es.map (·.simpleName)).eraseDups := by
  induction es using List.reverseRecOn with
  | nil => rfl
  | append_singleton es e ih =>
    have hmem : e.simpleName ∈ (ofList es).entities.keys ↔ e.simpleName ∈ es.map (·.simpleName) := by
      rw [ih, List.mem_eraseDups]
    have hinsert : ((ofList es).insert e).entities.keys =
        if e.simpleName ∈ (ofList es).entities.keys then (ofList es).entities.keys
        else (ofList es).entities.keys ++ [e.simpleName] := OrderedMap.keys_insert ..
    rw [ofList_concat, hinsert, List.map_append, List.map_singleton,
      OrderedMap.eraseDups_concat, ← ih]
    simp only [hmem]

theorem map_simpleName_toList (s : Schema) : s.toList.map (·.simpleName) = s.entities.keys := by
  rw [toList, OrderedMap.values, OrderedMap.keys, List.map_map]
  apply List.map_congr_left
  intro entry hentry
  exact (s.named entry hentry).symm

theorem filterMap_entity?_keys (s : Schema) : s.entities.keys.filterMap s.entity? = s.toList := by
  have hfound : s.toList.filterMap (fun e => s.entity? e.simpleName) = s.toList.filterMap some :=
    List.filterMap_congr fun e he => entity?_of_mem he
  rw [← map_simpleName_toList, List.filterMap_map]
  exact hfound.trans List.filterMap_some

theorem contains_ofList {name : String} : (ofList es).contains name = true ↔
    QueryCriteria.simpleName name ∈ es.map (·.simpleName) := by
  rw [contains, entity?_ofList, last?, List.getLast?_isSome, Ne, List.filter_eq_nil_iff]
  simp

/-! ## Declaration -/

/-- Every entity has a name that is not blank, and no two have the same simple name. -/
structure Declarable (es : List Entity) : Prop where
  named : ∀ e ∈ es, Text.isBlank e.name = false
  distinct : (es.map (·.simpleName)).Nodup

/-- Why an entity cannot be declared behind others. -/
inductive Offends (before : List Entity) (e : Entity) : Fault → Prop
  | unnamed (hblank : Text.isBlank e.name = true) : Offends before e .unnamedEntity
  | repeated (hblank : Text.isBlank e.name = false)
      (hmem : e.simpleName ∈ before.map (·.simpleName)) :
    Offends before e (.repeatedEntity e.name)

theorem Offends.not_declarable {after : List Entity} (h : Offends before e fault) :
    ¬ Declarable (before ++ e :: after) := by
  intro hes
  cases h with
  | unnamed hblank =>
    have hnamed := hes.named e (by simp)
    cases hblank.symm.trans hnamed
  | repeated hblank hmem =>
    have hdistinct := hes.distinct
    rw [List.map_append] at hdistinct
    exact (List.nodup_append.1 hdistinct).2.2 _ hmem _ (.head _) rfl

/-- Behind declarable entities, another one is registered, or offends. -/
theorem declare_cases (h : Declarable before) (e : Entity) :
    (Declarable (before ++ [e]) ∧ (ofList before).declare e = .ok (ofList (before ++ [e]))) ∨
      ∃ fault, Offends before e fault ∧ (ofList before).declare e = .error fault := by
  unfold declare
  cases hblank : Text.isBlank e.name with
  | true => exact .inr ⟨_, .unnamed hblank, rfl⟩
  | false =>
    by_cases hmem : (ofList before).contains e.name = true
    · exact .inr ⟨_, .repeated hblank (contains_ofList.1 hmem), by simp [hmem]⟩
    · left
      refine ⟨⟨?_, ?_⟩, ?_⟩
      · exact List.forall_mem_append.2 ⟨h.named, List.forall_mem_singleton.2 hblank⟩
      · rw [List.map_append, List.map_singleton, ← List.concat_eq_append, List.nodup_concat]
        exact ⟨fun hname => hmem (contains_ofList.2 hname), h.distinct⟩
      · simp [hmem, ofList_concat]

/-- The first entity that offends decides; without any, all are registered in order. -/
theorem foldlM_declare (h : Declarable before) (es : List Entity) :
    (Declarable (before ++ es) ∧
      es.foldlM declare (ofList before) = .ok (ofList (before ++ es))) ∨
    ∃ sound e after fault, before ++ es = sound ++ e :: after ∧ Declarable sound ∧
      Offends sound e fault ∧ es.foldlM declare (ofList before) = .error fault := by
  induction es generalizing before with
  | nil =>
    left
    rw [List.append_nil]
    exact ⟨h, rfl⟩
  | cons e es ih =>
    rw [List.foldlM_cons]
    rcases declare_cases h e with ⟨hdeclarable, hok⟩ | ⟨fault, hoffends, herror⟩
    · rw [hok, ← List.singleton_append, ← List.append_assoc]
      exact ih hdeclarable
    · right
      refine ⟨before, e, es, fault, rfl, h, hoffends, ?_⟩
      rw [herror]
      rfl

theorem ofDeclarations_cases (es : List Entity) :
    (Declarable es ∧ ofDeclarations es = .ok (ofList es)) ∨
    ∃ sound e after fault, es = sound ++ e :: after ∧ Declarable sound ∧ Offends sound e fault ∧
      ofDeclarations es = .error fault := by
  have hnone : Declarable [] := ⟨nofun, .nil⟩
  exact foldlM_declare hnone es

theorem read_eq {text : String} (h : declarations? text = some es) :
    read text = ofDeclarations es := by
  rw [read, h]

/-! ## Both -/

/-- Whatever entities are registered in order, a name finds the last with its simple name, and there
is one entity for each simple name, in the order of first registration. A document that declares
these entities makes the same schema exactly when each has a name that is not blank and no two have
the same simple name. Otherwise it makes none, for the first entity whose name is blank or whose
simple name stands before it. -/
theorem registers_last (es : List Entity) :
    (∀ name, (ofList es).entity? name = last? es name) ∧
    (ofList es).toList.map (·.simpleName) = (es.map (·.simpleName)).eraseDups ∧
    (ofList es).toList = (es.map (·.simpleName)).eraseDups.filterMap (last? es) ∧
    ∀ text, declarations? text = some es →
      ((∃ s, read text = .ok s) ↔ Declarable es) ∧
      (∀ s, read text = .ok s → s = ofList es) ∧
      ∀ fault, read text = .error fault → ∃ before e after, es = before ++ e :: after ∧
        Declarable before ∧ Offends before e fault := by
  refine ⟨entity?_ofList es, ?_, ?_, fun text htext => ?_⟩
  · rw [map_simpleName_toList, keys_ofList]
  · rw [← filterMap_entity?_keys, keys_ofList]
    exact congrArg (List.filterMap · _) (funext (entity?_ofList es))
  · rw [read_eq htext]
    rcases ofDeclarations_cases es with ⟨hdeclarable, hok⟩ |
      ⟨before, e, after, fault, rfl, hbefore, hoffends, herror⟩
    · rw [hok]
      exact ⟨⟨fun _ => hdeclarable, fun _ => ⟨_, rfl⟩⟩, fun s hs => (Except.ok.inj hs).symm, nofun⟩
    · rw [herror]
      refine ⟨⟨nofun, fun hdeclarable => absurd hdeclarable hoffends.not_declarable⟩, nofun, ?_⟩
      intro fault' hfault
      obtain rfl := Except.error.inj hfault
      exact ⟨before, e, after, rfl, hbefore, hoffends⟩

/-- A third entity goes in the place of the first, whose simple name it has; a document may declare
the first two only. -/
theorem registers_last_replaced :
    let order : Entity := ⟨"shop.Order", []⟩
    let line : Entity := ⟨"Line", []⟩
    let order' : Entity := ⟨"Order", []⟩
    let text := "[[entity]]\nname = \"shop.Order\"\n[[entity]]\nname = \"Line\"\n"
    let text' := text ++ "[[entity]]\nname = \"Order\"\n"
    declarations? text = some [order, line] ∧ declarations? text' = some [order, line, order'] ∧
      (ofList [order, line, order']).toList = [order', line] ∧
      (ofList [order, line, order']).entity? "crm:Order" = some order' ∧
      read text = .ok (ofList [order, line]) ∧ read text' = .error (.repeatedEntity "Order") ∧
      ∃ before e after, [order, line, order'] = before ++ e :: after ∧ Declarable before ∧
        Offends before e (.repeatedEntity "Order") := by
  intro order line order' text text'
  have htext : declarations? text = some [order, line] := by decide +kernel
  have htext' : declarations? text' = some [order, line, order'] := by decide +kernel
  obtain ⟨hfind, -, hlist, hread'⟩ := registers_last [order, line, order']
  obtain ⟨-, -, -, hread⟩ := registers_last [order, line]
  obtain ⟨hsucceeds, hequal, -⟩ := hread text htext
  obtain ⟨s, hs⟩ := hsucceeds.2 ⟨by decide, by decide⟩
  obtain ⟨-, -, hoffends⟩ := hread' text' htext'
  have hrefused : read text' = .error (.repeatedEntity "Order") := by
    rw [read_eq htext']
    decide
  refine ⟨htext, htext', ?_, ?_, hequal s hs ▸ hs, hrefused, hoffends _ hrefused⟩
  · rw [hlist]
    decide
  · rw [hfind]
    decide

end QueryCriteria.Schema
