import Mathlib.Data.List.Induction
import Metamodel.Entity.Ancestry
import Metamodel.Proofs.Keyed

/-!
# Members taken over from ancestors

Merging ancestor after ancestor gives every property name to the first type that has it
(`properties_mergeAll`). A listener method goes to the first type that listens with a method of
its name, and with all its events (`listenersOf_foldl_merge`): a step adds the listeners of one
type together, so the events of one method never exclude each other. To merge an ancestor again
changes nothing (`mergeAll_eraseDups`).
-/

namespace Metamodel

/-- The properties of a type as its descendants have them: they tell the type that declares them,
which is this one unless they are inherited already, and are otherwise the same. -/
def Entity.heirProperties (e : Entity) : List Property :=
  e.properties.map fun p =>
    { p with inheritedFrom := some (p.inheritedFrom.getD e.qualifiedName) }

/-- The listeners of a type as its descendants have them. -/
def Entity.heirListeners (e : Entity) : List Listener :=
  e.listeners.map fun l =>
    { l with inheritedFrom := some (l.inheritedFrom.getD e.qualifiedName) }

/-- The listeners of one method. -/
def listenersOf (method : String) (ls : List Listener) : List Listener :=
  ls.filter (·.methodName == method)

/-- The listeners of a method in the first of several types that has any. -/
def nearestListeners (method : String) (types : List (List Listener)) : List Listener :=
  listenersOf method ((types.find? fun ls => ls.any (·.methodName == method)).getD [])

/-! ## The nearest type -/

theorem listenersOf_eq_nil_iff {method : String} {ls : List Listener} :
    listenersOf method ls = [] ↔ ls.any (·.methodName == method) = false := by
  rw [listenersOf, List.filter_eq_nil_iff, List.any_eq_false]

theorem nearestListeners_cons (method : String) (ls : List Listener)
    (types : List (List Listener)) :
    nearestListeners method (ls :: types) =
      if listenersOf method ls = [] then nearestListeners method types
      else listenersOf method ls := by
  unfold nearestListeners
  by_cases h : listenersOf method ls = []
  · rw [if_pos h, List.find?_cons, listenersOf_eq_nil_iff.1 h]
  · rw [if_neg h, List.find?_cons, eq_true_of_ne_false (mt listenersOf_eq_nil_iff.2 h)]
    rfl

namespace Members

/-! ## Properties -/

theorem foldl_addProperty (ancestor : String) (acc ps : List Property) :
    ps.foldl (addProperty ancestor) acc =
      (ps.map (·.inherited ancestor)).foldl (keepNew Property.name) acc := by
  rw [List.foldl_map]
  rfl

theorem properties_merge (m : Members) (e : Entity) :
    (m.merge e).properties = e.heirProperties.foldl (keepNew Property.name) m.properties :=
  foldl_addProperty e.qualifiedName m.properties e.properties

theorem properties_foldl_merge (m : Members) (es : List Entity) :
    (es.foldl merge m).properties =
      (es.flatMap Entity.heirProperties).foldl (keepNew Property.name) m.properties := by
  induction es generalizing m with
  | nil => rfl
  | cons e es ih =>
    rw [List.foldl_cons, ih, properties_merge, List.flatMap_cons, List.foldl_append]

/-- Own properties come first, and of each name the first one counts. -/
theorem properties_mergeAll {m : Members} {own : List Property}
    (hown : m.properties = firstBy Property.name own) (lookup : String → Option Entity)
    (names : List String) :
    (m.mergeAll lookup names).properties =
      firstBy Property.name (own ++ (names.filterMap lookup).flatMap Entity.heirProperties) := by
  rw [mergeAll, properties_foldl_merge, hown, foldl_keepNew_firstBy]

/-! ## Listeners -/

theorem listeners_merge (m : Members) (e : Entity) :
    (m.merge e).listeners = m.listeners ++
      e.heirListeners.filter fun l => !m.listeners.any (·.methodName == l.methodName) := by
  unfold merge Entity.heirListeners
  rw [List.filter_map]
  rfl

/-- A type adds all its listeners of a method, or none when there are some already. -/
theorem listenersOf_merge (m : Members) (e : Entity) (method : String) :
    listenersOf method (m.merge e).listeners =
      if listenersOf method m.listeners = [] then listenersOf method e.heirListeners
      else listenersOf method m.listeners := by
  have happend : listenersOf method (m.merge e).listeners =
      listenersOf method m.listeners ++ e.heirListeners.filter fun l =>
        l.methodName == method && !m.listeners.any (·.methodName == l.methodName) := by
    rw [listeners_merge, listenersOf, List.filter_append, List.filter_filter]
    rfl
  rw [happend]
  by_cases h : listenersOf method m.listeners = []
  · rw [if_pos h, h, List.nil_append, listenersOf]
    refine List.filter_congr fun l _ => ?_
    by_cases hl : l.methodName = method
    · rw [hl, listenersOf_eq_nil_iff.1 h]
      simp
    · simp [hl]
  · rw [if_neg h, List.filter_eq_nil_iff.2 fun l _ hl => ?_, List.append_nil]
    simp only [Bool.and_eq_true, beq_iff_eq, Bool.not_eq_true'] at hl
    obtain ⟨rfl, hnone⟩ := hl
    exact h (listenersOf_eq_nil_iff.2 hnone)

theorem listenersOf_foldl_merge (m : Members) (es : List Entity) (method : String) :
    listenersOf method (es.foldl merge m).listeners =
      nearestListeners method (m.listeners :: es.map Entity.heirListeners) := by
  induction es generalizing m with
  | nil =>
    rw [List.foldl_nil, List.map_nil, nearestListeners_cons]
    split
    · assumption
    · rfl
  | cons e es ih =>
    rw [List.foldl_cons, ih, List.map_cons, nearestListeners_cons, nearestListeners_cons,
      nearestListeners_cons, listenersOf_merge]
    by_cases h : listenersOf method m.listeners = []
    · rw [if_pos h, if_pos h]
    · rw [if_neg h, if_neg h, if_neg h]

/-- What the ancestors add stands behind the own listeners. -/
theorem exists_listeners_foldl_merge (m : Members) (es : List Entity) :
    ∃ inherited, (es.foldl merge m).listeners = m.listeners ++ inherited ∧
      ∀ l ∈ inherited, ∃ e ∈ es, l ∈ e.heirListeners := by
  induction es generalizing m with
  | nil => exact ⟨[], by simp, by simp⟩
  | cons e es ih =>
    obtain ⟨added, heq, hadded⟩ := ih (m.merge e)
    rw [List.foldl_cons, heq, listeners_merge, List.append_assoc]
    refine ⟨_, rfl, fun l hl => ?_⟩
    rcases List.mem_append.1 hl with hl | hl
    · exact ⟨e, List.mem_cons_self, (List.mem_filter.1 hl).1⟩
    · obtain ⟨e', he', hmem⟩ := hadded l hl
      exact ⟨e', List.mem_cons_of_mem e he', hmem⟩

/-! ## Ancestors merged again -/

/-- All that an ancestor could add is there already. -/
structure Covers (m : Members) (e : Entity) : Prop where
  properties : ∀ p ∈ e.properties, m.properties.any (·.name == p.name) = true
  listeners : ∀ l ∈ e.listeners, m.listeners.any (·.methodName == l.methodName) = true

theorem any_addProperty (ancestor : String) (ps : List Property) (p : Property) (name : String) :
    (addProperty ancestor ps p).any (·.name == name) =
      (ps.any (·.name == name) || p.name == name) := by
  unfold addProperty
  split
  · rename_i hany
    by_cases hname : p.name = name
    · rw [← hname, hany, Bool.true_or]
    · rw [beq_false_of_ne hname, Bool.or_false]
  · rw [List.any_append, List.any_cons, List.any_nil, Bool.or_false]
    rfl

theorem any_foldl_addProperty (ancestor : String) (ps acc : List Property) (name : String) :
    (ps.foldl (addProperty ancestor) acc).any (·.name == name) =
      (acc.any (·.name == name) || ps.any (·.name == name)) := by
  induction ps generalizing acc with
  | nil => simp
  | cons p ps ih => rw [List.foldl_cons, ih, any_addProperty, List.any_cons, Bool.or_assoc]

theorem any_listeners_merge (m : Members) (e : Entity) (method : String) :
    (m.merge e).listeners.any (·.methodName == method) =
      (m.listeners.any (·.methodName == method) || e.listeners.any (·.methodName == method)) := by
  rw [merge, List.any_append, List.any_map, List.any_filter]
  cases hm : m.listeners.any (·.methodName == method) with
  | true => rfl
  | false =>
    rw [Bool.false_or, Bool.false_or]
    refine List.any_congr rfl fun l => ?_
    by_cases hl : l.methodName = method
    · simp [hl, hm, Listener.inherited]
    · simp [hl, Listener.inherited]

theorem covers_merge (m : Members) (e : Entity) : (m.merge e).Covers e where
  properties p hp := by
    show (e.properties.foldl _ m.properties).any _ = true
    rw [any_foldl_addProperty, Bool.or_eq_true]
    exact Or.inr (List.any_eq_true.2 ⟨p, hp, beq_self_eq_true _⟩)
  listeners l hl := by
    rw [any_listeners_merge, Bool.or_eq_true]
    exact Or.inr (List.any_eq_true.2 ⟨l, hl, beq_self_eq_true _⟩)

theorem Covers.merge {m : Members} {e : Entity} (h : m.Covers e) (other : Entity) :
    (m.merge other).Covers e where
  properties p hp := by
    show (other.properties.foldl _ m.properties).any _ = true
    rw [any_foldl_addProperty, h.properties p hp, Bool.true_or]
  listeners l hl := by
    rw [any_listeners_merge, h.listeners l hl, Bool.true_or]

theorem Covers.merge_eq {m : Members} {e : Entity} (h : m.Covers e) : m.merge e = m := by
  have hproperties : ∀ ps : List Property,
      (∀ p ∈ ps, m.properties.any (·.name == p.name) = true) →
        ps.foldl (addProperty e.qualifiedName) m.properties = m.properties := by
    intro ps hps
    induction ps with
    | nil => rfl
    | cons p ps ih =>
      rw [List.foldl_cons, addProperty, if_pos (hps p List.mem_cons_self)]
      exact ih fun q hq => hps q (List.mem_cons_of_mem _ hq)
  have hlisteners :
      (e.listeners.filter fun l => !m.listeners.any (·.methodName == l.methodName)) = [] := by
    apply List.filter_eq_nil_iff.2
    intro l hl
    simp [h.listeners l hl]
  rw [Members.merge, hproperties _ h.properties, hlisteners, List.map_nil, List.append_nil]

theorem Covers.foldl_merge {m : Members} {e : Entity} (h : m.Covers e) (es : List Entity) :
    (es.foldl Members.merge m).Covers e := by
  induction es generalizing m with
  | nil => exact h
  | cons other es ih => exact ih (h.merge other)

theorem covers_foldl_merge (m : Members) {es : List Entity} {e : Entity} (h : e ∈ es) :
    (es.foldl merge m).Covers e := by
  obtain ⟨before, after, rfl⟩ := List.append_of_mem h
  rw [List.foldl_append, List.foldl_cons]
  exact (covers_merge _ e).foldl_merge after

/-- An ancestor that was merged adds nothing when it is merged again. -/
theorem mergeAll_eraseDups (m : Members) (lookup : String → Option Entity) (names : List String) :
    m.mergeAll lookup names.eraseDups = m.mergeAll lookup names := by
  induction names using List.reverseRecOn with
  | nil => rfl
  | append_singleton names name ih =>
    rw [eraseDups_concat]
    by_cases hname : name ∈ names
    · rw [if_pos hname, ih, mergeAll, mergeAll, List.filterMap_append, List.foldl_append]
      cases hlookup : lookup name with
      | none => simp [hlookup]
      | some e =>
        have hcovers := covers_foldl_merge m (List.mem_filterMap.2 ⟨name, hname, hlookup⟩)
        simp [hlookup, hcovers.merge_eq]
    · rw [mergeAll] at ih
      rw [if_neg hname, mergeAll, mergeAll, List.filterMap_append, List.foldl_append, ih, mergeAll,
        List.filterMap_append, List.foldl_append]

end Members

end Metamodel
