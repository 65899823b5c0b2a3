import Metamodel.Proofs.Run.Remarks

/-!
# Own listeners

The methods that instances can be called with and that take nothing are callbacks: for each event that
one is annotated with there is a listener. Private callbacks have none. Protected ones have, although
they cannot be called from outside of the type either (`ownListeners_of_buildEntity`).
-/

namespace Metamodel

/-- Whether the member is a method of instances that takes nothing. -/
def Member.isCallback (m : Member) : Bool :=
  m.kind == .method && m.parameterCount.getD 0 == 0 && !m.has .static

/-- Whether the member can be used from outside of its type. -/
def Member.isPublic (m : Member) : Bool :=
  !m.has .private && !m.has .protected

/-- The events that the member is annotated with, in the order of the catalog. -/
def Member.events (m : Member) (catalog : Catalog) : List LifecycleEvent :=
  LifecycleEvent.all.filter fun event => m.isAnnotated catalog (.listener event)

/-- The listeners that call the member. -/
def Member.calls (m : Member) (catalog : Catalog) : List Listener :=
  (m.events catalog).map (⟨·, m.name, none⟩)

/-- The listeners that a built type does not inherit. -/
def Built.ownListeners (b : Built) : List Listener :=
  b.entity.listeners.filter (·.inheritedFrom.isNone)

/-! ## Members -/

theorem Member.listeners_eq (m : Member) (catalog : Catalog) :
    m.listeners catalog =
      if m.isCallback && !m.has .private then m.calls catalog else [] := by
  have hcallback : (m.kind ≠ .method ∨ m.parameterCount.getD 0 ≠ 0 ∨ m.has .private ∨
      m.has .static) ↔ ¬ (m.isCallback && !m.has .private) = true := by
    unfold isCallback
    cases m.has .private <;> cases m.has .static <;> simp [imp_iff_not_or]
  have hevents (event : LifecycleEvent) : hasMark (m.marks catalog) (.listener event) =
      m.isAnnotated catalog (.listener event) :=
    hasMark_marks m catalog _
  unfold listeners
  by_cases h : (m.isCallback && !m.has .private) = true
  · rw [if_neg (mt hcallback.1 (not_not_intro h)), if_pos h, calls, events]
    simp only [hevents]
  · rw [if_pos (hcallback.2 h), if_neg h]

theorem flatMap_listeners (catalog : Catalog) (members : List Member) :
    members.flatMap (·.listeners catalog) =
      (members.filter fun m => m.isCallback && !m.has .private).flatMap (·.calls catalog) := by
  simp only [Member.listeners_eq]
  induction members with
  | nil => rfl
  | cons m members ih =>
    rw [List.flatMap_cons, List.filter_cons, ih]
    split <;> rfl

theorem inheritedFrom_of_mem_calls {m : Member} {catalog : Catalog} {l : Listener}
    (h : l ∈ m.calls catalog) : l.inheritedFrom = none := by
  obtain ⟨event, -, rfl⟩ := List.mem_map.1 h
  rfl

theorem calls_eq_nil_iff {m : Member} {catalog : Catalog} :
    m.calls catalog = [] ↔ m.events catalog = [] :=
  List.map_eq_nil_iff

/-! ## Listeners of some members -/

/-- To leave out items changes nothing exactly when these have nothing to say. -/
theorem flatMap_filter_eq_iff {α β : Type} {keep : α → Bool} {f : α → List β} {xs : List α} :
    (xs.filter keep).flatMap f = xs.flatMap f ↔ ∀ x ∈ xs, keep x = false → f x = [] := by
  have hle (xs : List α) : ((xs.filter keep).flatMap f).length ≤ (xs.flatMap f).length := by
    induction xs with
    | nil => exact Nat.le_refl 0
    | cons x xs ih =>
      rw [List.filter_cons]
      split <;> simp only [List.flatMap_cons, List.length_append] <;> omega
  induction xs with
  | nil => exact ⟨fun _ x hx => absurd hx List.not_mem_nil, fun _ => rfl⟩
  | cons x xs ih =>
    rw [List.filter_cons, List.flatMap_cons, List.forall_mem_cons]
    cases hx : keep x with
    | true =>
      rw [if_pos rfl, List.flatMap_cons, List.append_cancel_left_eq]
      exact ih.trans ⟨fun h => ⟨by simp, h⟩, And.right⟩
    | false =>
      rw [if_neg Bool.false_ne_true]
      constructor
      · intro heq
        have hlength := congrArg List.length heq
        rw [List.length_append] at hlength
        have hnil : f x = [] := List.eq_nil_of_length_eq_zero (by have := hle xs; omega)
        exact ⟨fun _ => hnil, ih.1 (by rw [heq, hnil, List.nil_append])⟩
      · rintro ⟨hnil, hrest⟩
        rw [hnil rfl, List.nil_append, ih.2 hrest]

/-! ## Built types -/

/-- A type does not inherit the listeners of its own members, and inherits all others. -/
theorem IsBuilt.ownListeners_eq {c : Context} {kind : EntityKind} {d : Declaration}
    {members : List Member} {b : Built} (h : IsBuilt c kind d members b) :
    b.ownListeners = (members.filter fun m => m.isCallback && !m.has .private).flatMap
      (·.calls c.source.catalog) := by
  obtain ⟨inherited, heq, hinherited⟩ := Members.exists_listeners_foldl_merge
    (c.ownMembers d b.entity.owner members)
    ((c.ancestorNames kind d b.entity.qualifiedName).filterMap c.ancestor?)
  have hlisteners : b.entity.listeners =
      members.flatMap (·.listeners c.source.catalog) ++ inherited :=
    h.listeners_eq.trans heq
  have hown : ∀ l ∈ (members.filter fun m => m.isCallback && !m.has .private).flatMap
      (·.calls c.source.catalog), l.inheritedFrom.isNone = true := by
    intro l hl
    obtain ⟨m, -, hm⟩ := List.mem_flatMap.1 hl
    rw [inheritedFrom_of_mem_calls hm]
    rfl
  have hothers : inherited.filter (·.inheritedFrom.isNone) = [] := by
    refine List.filter_eq_nil_iff.2 fun l hl => ?_
    obtain ⟨e, -, hmem⟩ := hinherited l hl
    obtain ⟨l', -, rfl⟩ := List.mem_map.1 hmem
    simp
  rw [Built.ownListeners, hlisteners, List.filter_append, flatMap_listeners,
    List.filter_eq_self.2 hown, hothers, List.append_nil]

/-- Own listeners are those of the callbacks that are not private, in the order of the members and of
the events. They are those of the public callbacks exactly when no protected one is annotated with an
event. -/
theorem ownListeners_of_buildEntity {c : Context} {kind : EntityKind} {d : Declaration} {b : Built}
    (h : buildEntity c d kind = .ok b) :
    ∃ members, c.source.members d = .ok members ∧
      b.ownListeners = (members.filter fun m => m.isCallback && !m.has .private).flatMap
        (·.calls c.source.catalog) ∧
      (kind ≠ .entity → b.entity.listeners = b.ownListeners) ∧
      (b.ownListeners = (members.filter fun m => m.isCallback && m.isPublic).flatMap
          (·.calls c.source.catalog) ↔
        ∀ m ∈ members, m.isCallback = true → m.has .private = false → m.has .protected = true →
          m.events c.source.catalog = []) := by
  obtain ⟨members, hb⟩ := isBuilt_of_buildEntity h
  have hown := hb.ownListeners_eq
  refine ⟨members, hb.supplied, hown, fun hkind => ?_, ?_⟩
  · rw [hown, ← flatMap_listeners, hb.listeners_eq, c.ancestorNames_of_ne hkind]
    rfl
  · have hpublic : (members.filter fun m => m.isCallback && m.isPublic) =
        (members.filter fun m => m.isCallback && !m.has .private).filter
          fun m => !m.has .protected := by
      rw [List.filter_filter]
      refine List.filter_congr fun m _ => ?_
      unfold Member.isPublic
      cases m.has .protected <;> simp
    rw [hown, hpublic, eq_comm, flatMap_filter_eq_iff]
    simp only [List.mem_filter, calls_eq_nil_iff, Bool.and_eq_true, Bool.not_eq_true',
      Bool.not_eq_false', and_imp]

/-! ## A type with a protected callback -/

namespace Sample

theorem supplied (d : Declaration) : context.source.members d = .ok (d.members.getD []) := by
  rw [context, Run.source_build]
  rfl

/-- A class that keeps one of its callbacks to its descendants. -/
def vault : Declaration :=
  type .class "Vault" ["Superclass"] []
    [field "id" ["Key"], callback "closed" ["PreUpdate"],
      { callback "opened" ["PostLoad"] with modifiers := some [.protected] }]

end Sample

/-- All callbacks of the base are public. -/
theorem ownListeners_of_base :
    ∃ b, buildEntity Sample.context Sample.base .superclass = .ok b ∧
      b.entity.listeners.map (fun l => (l.event, l.methodName)) =
        [(.postInsert, "saved"), (.postUpdate, "saved")] ∧
      ∃ members, Sample.context.source.members Sample.base = .ok members ∧
        b.entity.listeners = (members.filter fun m => m.isCallback && m.isPublic).flatMap
          (·.calls Sample.context.source.catalog) := by
  obtain ⟨b, hb, hexpected⟩ := @Sample.exists_built Sample.base .superclass
    (fun b => b.entity.listeners.map (fun l => (l.event, l.methodName)) ==
      [(.postInsert, "saved"), (.postUpdate, "saved")])
    (by decide +kernel)
  have hprotected : (Sample.base.members.getD []).all (!·.has .protected) = true := by
    decide +kernel
  obtain ⟨members, hmembers, -, hall, hpublic⟩ := ownListeners_of_buildEntity hb
  obtain rfl : _ = members := Except.ok.inj ((Sample.supplied _).symm.trans hmembers)
  refine ⟨b, hb, eq_of_beq hexpected, _, hmembers, ?_⟩
  rw [hall (by decide)]
  refine hpublic.2 fun m hm _ _ hprot => ?_
  have hnot := List.all_eq_true.1 hprotected m hm
  rw [hprot] at hnot
  cases hnot

/-- A callback is a listener although it is protected. -/
theorem exists_protected_listener :
    ∃ b members, buildEntity Sample.context Sample.vault .superclass = .ok b ∧
      Sample.context.source.members Sample.vault = .ok members ∧
      b.entity.listeners.map (·.methodName) = ["closed", "opened"] ∧
      ((members.filter fun m => m.isCallback && m.isPublic).flatMap
        (·.calls Sample.context.source.catalog)).map (·.methodName) = ["closed"] := by
  obtain ⟨b, hb, hnames⟩ := @Sample.exists_built Sample.vault .superclass
    (fun b => b.entity.listeners.map (·.methodName) == ["closed", "opened"]) (by decide +kernel)
  exact ⟨b, _, hb, Sample.supplied _, eq_of_beq hnames, by decide +kernel⟩

end Metamodel
