import Metamodel.Proofs.Run.Build
import Metamodel.Run.Process

/-!
# What a built type inherits

The properties of a built type are its own and those of its ancestors one behind the other, of
each name the first. The ancestors are the chain of first supertypes and then the interfaces among
the direct supertypes, as far as they have been built as superclasses or embeddables. The
listeners of a method are those of the nearest type that has any, all of them.
-/

namespace Metamodel

/-- The names of the interfaces among the direct supertypes, in the order as written. -/
def DeclarationSource.directInterfaces (s : DeclarationSource) (d : Declaration) : List String :=
  ((d.supers.filterMap s.declarationOf?).filter (·.isInterface)).filterMap Declaration.knownName?

/-- The properties that a name hands down: those of the superclass of that name, or else of the
embeddable. -/
def Context.inheritedProperties (c : Context) (name : String) : List Property :=
  ((c.superclasses.get? name).or (c.embeddables.get? name)).elim [] Entity.heirProperties

/-- The listeners that a name hands down: those of the superclass of that name, or else of the
embeddable. -/
def Context.inheritedListeners (c : Context) (name : String) : List Listener :=
  ((c.superclasses.get? name).or (c.embeddables.get? name)).elim [] Entity.heirListeners

theorem interfaces_eq_directInterfaces (s : DeclarationSource) (d : Declaration) :
    Ancestry.interfaces s d = s.directInterfaces d := by
  unfold Ancestry.interfaces DeclarationSource.directInterfaces
  induction d.supers with
  | nil => rfl
  | cons ref refs ih =>
    rw [List.filterMap_cons, List.filterMap_cons, ih]
    cases s.declarationOf? ref with
    | none => rfl
    | some next =>
      by_cases hi : next.isInterface
      · simp only [Option.filter, hi, if_true, Option.bind_some, List.filter_cons, List.filterMap_cons]
      · simp only [Option.filter, hi, List.filter_cons]
        rfl

/-- An entity takes over the members of a chain and then of the direct interfaces. -/
theorem ancestorNames_entity (c : Context) (d : Declaration) (own : String) :
    ∃ chain, Ancestry.IsChain c.source [own] d chain ∧
      c.ancestorNames .entity d own = chain ++ c.source.directInterfaces d := by
  obtain ⟨chain, hchain, heq⟩ := Ancestry.exists_isChain_of c.source d own
  refine ⟨chain, hchain, ?_⟩
  rw [← interfaces_eq_directInterfaces, ← heq]
  rfl

theorem flatMap_heirProperties (c : Context) (names : List String) :
    (names.filterMap c.ancestor?).flatMap Entity.heirProperties =
      names.flatMap c.inheritedProperties := by
  induction names with
  | nil => rfl
  | cons name names ih =>
    rw [List.filterMap_cons, List.flatMap_cons, ← ih, Context.inheritedProperties,
      Context.ancestor?]
    cases (c.superclasses.get? name).or (c.embeddables.get? name) with
    | none => rfl
    | some e =>
      rw [List.flatMap_cons]
      rfl

/-- Names of which nothing has been built have no listeners that could come first. -/
theorem nearestListeners_heirListeners (c : Context) (names : List String) (method : String) :
    nearestListeners method ((names.filterMap c.ancestor?).map Entity.heirListeners) =
      nearestListeners method (names.map c.inheritedListeners) := by
  induction names with
  | nil => rfl
  | cons name names ih =>
    rw [List.filterMap_cons, List.map_cons, nearestListeners_cons, ← ih,
      Context.inheritedListeners, Context.ancestor?]
    cases (c.superclasses.get? name).or (c.embeddables.get? name) with
    | none => rfl
    | some e =>
      rw [List.map_cons, nearestListeners_cons]
      rfl

theorem mem_inheritedListeners {c : Context} {name : String} {e : Entity} {l : Listener}
    (he : c.ancestor? name = some e) (hl : l ∈ e.heirListeners) :
    l ∈ c.inheritedListeners name := by
  rw [Context.inheritedListeners, ← Context.ancestor?, he]
  exact hl

/-! ## A small model

An order inherits from a class and an interface, which share a property and a method. -/

namespace Sample

/-- A text field with the given annotations. -/
def field (name : String) (annotations : List String) : Member :=
  ⟨name, .field, none, .primitive "string", none, some (annotations.map fun a => ⟨a, none⟩), none⟩

/-- A method without result with the given annotations. -/
def callback (name : String) (annotations : List String) : Member :=
  ⟨name, .method, none, .void, none, some (annotations.map fun a => ⟨a, none⟩), none⟩

/-- A type of the package `shop`. -/
def type (kind : DeclarationKind) (name : String) (annotations supers : List String)
    (members : List Member) : Declaration :=
  ⟨"shop", name, some ("shop." ++ name), kind, none, some (annotations.map fun a => ⟨a, none⟩),
    some (supers.map fun s => ⟨.named, "shop." ++ s, none, none, none, none⟩), some members, none⟩

def base : Declaration :=
  type .class "Base" ["Superclass"] ["Base"]
    [field "id" ["Key"], callback "saved" ["PostInsert", "PostUpdate"]]

def audited : Declaration :=
  type .interface "Audited" ["Embedded"] []
    [field "id" [], field "changed" [], callback "saved" ["PreUpdate"]]

def order : Declaration :=
  type .class "Order" ["Entity"] ["Base", "Audited"] [field "total" []]

def item : Declaration :=
  type .class "Item" ["Entity"] ["Base"] []

def declarations : List Declaration := [order, base, audited]

/-- What a run has built of them. -/
def context : Context :=
  (Run.build (.ofDeclarations declarations (.create true)) .default).context

end Sample

/-! ## Own members only -/

/-- Superclasses and embeddables take over nothing: what they inherit is merged into the entities
that have them as ancestors. -/
theorem ownMembers_of_buildEntity {c : Context} {kind : EntityKind} {d : Declaration} {b : Built}
    (hkind : kind ≠ .entity) (h : buildEntity c d kind = .ok b) :
    ∃ members, c.source.members d = .ok members ∧
      b.entity.properties = firstBy Property.name
        (members.filterMap fun m => extractProperty? c.source.catalog m b.entity.owner) ∧
      b.entity.listeners = members.flatMap (·.listeners c.source.catalog) := by
  obtain ⟨members, hb⟩ := isBuilt_of_buildEntity h
  refine ⟨members, hb.supplied, hb.properties_eq_own hkind, ?_⟩
  rw [hb.listeners_eq, c.ancestorNames_of_ne hkind]
  rfl

/-! ## Properties -/

/-- The properties of an entity are the first ones of each name among its own, those of the chain
of first supertypes, nearest first, and those of the direct interfaces. -/
theorem properties_of_buildEntity {c : Context} {d : Declaration} {b : Built}
    (h : buildEntity c d .entity = .ok b) :
    ∃ members chain, c.source.members d = .ok members ∧
      Ancestry.IsChain c.source [b.entity.qualifiedName] d chain ∧
      (∀ other, Ancestry.IsChain c.source [b.entity.qualifiedName] d other → other = chain) ∧
      b.entity.properties = firstBy Property.name
        ((members.filterMap fun m => extractProperty? c.source.catalog m b.entity.owner) ++
          (chain ++ c.source.directInterfaces d).flatMap c.inheritedProperties) := by
  obtain ⟨members, hb⟩ := isBuilt_of_buildEntity h
  obtain ⟨chain, hchain, hnames⟩ := ancestorNames_entity c d b.entity.qualifiedName
  refine ⟨members, chain, hb.supplied, hchain, fun other ho => ho.unique hchain, ?_⟩
  rw [hb.properties_eq, hnames, ← flatMap_heirProperties]
  exact Members.properties_mergeAll (properties_ownMembers c d b.entity.owner members) _ _

/-- An order has its total, the key of its class, and of its interface what is not there yet. -/
theorem properties_of_order :
    ∃ b, buildEntity Sample.context Sample.order .entity = .ok b ∧
      b.entity.properties.map (·.name) = ["total", "id", "changed"] ∧
      ∃ members chain, Sample.context.source.members Sample.order = .ok members ∧
        Ancestry.IsChain Sample.context.source [b.entity.qualifiedName] Sample.order chain ∧
        b.entity.properties = firstBy Property.name
          ((members.filterMap fun m =>
              extractProperty? Sample.context.source.catalog m b.entity.owner) ++
            (chain ++ Sample.context.source.directInterfaces Sample.order).flatMap
              Sample.context.inheritedProperties) := by
  have hnames : (buildEntity Sample.context Sample.order .entity).toOption.map
      (·.entity.properties.map (·.name)) = some ["total", "id", "changed"] := by decide +kernel
  cases hb : buildEntity Sample.context Sample.order .entity with
  | error e => simp [hb, Except.toOption] at hnames
  | ok b =>
    obtain ⟨members, chain, hmembers, hchain, -, heq⟩ := properties_of_buildEntity hb
    refine ⟨b, rfl, ?_, members, chain, hmembers, hchain, heq⟩
    simpa [hb, Except.toOption] using hnames

/-! ## Listeners -/

/-- The listeners of a method are those of the first type that has any, all of them in their
order, where the types are the entity itself, the chain of first supertypes, nearest first, and
the direct interfaces. Own listeners stand before inherited ones, each of which an ancestor hands
down. -/
theorem listeners_of_buildEntity {c : Context} {d : Declaration} {b : Built}
    (h : buildEntity c d .entity = .ok b) :
    ∃ members chain, c.source.members d = .ok members ∧
      Ancestry.IsChain c.source [b.entity.qualifiedName] d chain ∧
      (∀ other, Ancestry.IsChain c.source [b.entity.qualifiedName] d other → other = chain) ∧
      (∀ method, listenersOf method b.entity.listeners =
        nearestListeners method (members.flatMap (·.listeners c.source.catalog) ::
          (chain ++ c.source.directInterfaces d).map c.inheritedListeners)) ∧
      ∃ inherited, b.entity.listeners =
          members.flatMap (·.listeners c.source.catalog) ++ inherited ∧
        ∀ l ∈ inherited, ∃ name ∈ chain ++ c.source.directInterfaces d,
          l ∈ c.inheritedListeners name := by
  obtain ⟨members, hb⟩ := isBuilt_of_buildEntity h
  obtain ⟨chain, hchain, hnames⟩ := ancestorNames_entity c d b.entity.qualifiedName
  have hlisteners := hb.listeners_eq
  rw [hnames, Members.mergeAll] at hlisteners
  refine ⟨members, chain, hb.supplied, hchain, fun other ho => ho.unique hchain, fun method => ?_, ?_⟩
  · rw [hlisteners, Members.listenersOf_foldl_merge, nearestListeners_cons, nearestListeners_cons,
      nearestListeners_heirListeners]
    rfl
  · obtain ⟨inherited, heq, hmem⟩ := Members.exists_listeners_foldl_merge
      (c.ownMembers d b.entity.owner members)
      ((chain ++ c.source.directInterfaces d).filterMap c.ancestor?)
    refine ⟨inherited, hlisteners.trans heq, fun l hl => ?_⟩
    obtain ⟨e, he, hle⟩ := hmem l hl
    obtain ⟨name, hname, hlookup⟩ := List.mem_filterMap.1 he
    exact ⟨name, hname, mem_inheritedListeners hlookup hle⟩

/-- An order listens with both events of its class and with none of its interface's. -/
theorem listeners_of_order :
    ∃ b, buildEntity Sample.context Sample.order .entity = .ok b ∧
      b.entity.listeners.map (·.event) = [.postInsert, .postUpdate] ∧
      ∃ members chain, Sample.context.source.members Sample.order = .ok members ∧
        Ancestry.IsChain Sample.context.source [b.entity.qualifiedName] Sample.order chain ∧
        ∀ method, listenersOf method b.entity.listeners =
          nearestListeners method
            (members.flatMap (·.listeners Sample.context.source.catalog) ::
              (chain ++ Sample.context.source.directInterfaces Sample.order).map
                Sample.context.inheritedListeners) := by
  have hevents : (buildEntity Sample.context Sample.order .entity).toOption.map
      (·.entity.listeners.map (·.event)) = some [.postInsert, .postUpdate] := by decide +kernel
  cases hb : buildEntity Sample.context Sample.order .entity with
  | error e => simp [hb, Except.toOption] at hevents
  | ok b =>
    obtain ⟨members, chain, hmembers, hchain, -, heq, -⟩ := listeners_of_buildEntity hb
    refine ⟨b, rfl, ?_, members, chain, hmembers, hchain, heq⟩
    simpa [hb, Except.toOption] using hevents

end Metamodel
