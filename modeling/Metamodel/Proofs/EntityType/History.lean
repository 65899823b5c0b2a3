import Metamodel.EntityType.Basic
import Metamodel.Proofs.Keyed

/-!
# Histories of types

A type is defined in a course of calls: settings, attempts to add an attribute, listeners, and builds
at any points. An attempt fails exactly if an attribute of its name has been accepted before. The
type that a draft gives is told by the calls before (`definedBy_build`), and what has been built is
found unchanged after all further calls (`getElem?_built_run`).
-/

namespace Metamodel

variable {Factory Action : Type}

/-- A call in the definition of a type. -/
inductive DraftCall (Factory Action : Type) where
  | table (name : String)
  | readOnly (value : Bool)
  | stateless (value : Bool)
  | immutable (value : Bool)
  | factory (make : Factory)
  | addAttribute (a : Attribute)
  | addListener (event : LifecycleEvent) (action : Action)
  | build

namespace DraftCall

def tableName? : DraftCall Factory Action → Option String
  | table name => some name
  | _ => none

def readOnly? : DraftCall Factory Action → Option Bool
  | readOnly value => some value
  | _ => none

def stateless? : DraftCall Factory Action → Option Bool
  | stateless value => some value
  | _ => none

def immutable? : DraftCall Factory Action → Option Bool
  | immutable value => some value
  | _ => none

def factory? : DraftCall Factory Action → Option Factory
  | factory make => some make
  | _ => none

def attribute? : DraftCall Factory Action → Option Attribute
  | addAttribute a => some a
  | _ => none

def listener? : DraftCall Factory Action → Option (EventListener Action)
  | addListener event action => some ⟨event, action⟩
  | _ => none

def isBuild : DraftCall Factory Action → Bool
  | build => true
  | _ => false

/-- What the call sets in a draft, attributes apart. -/
def set (d : TypeDraft Factory Action) : DraftCall Factory Action → TypeDraft Factory Action
  | table name => { d with tableName := name }
  | readOnly value => { d with isReadOnly := value }
  | stateless value => { d with isStateless := value }
  | immutable value => { d with isImmutable := value }
  | factory make => { d with factory := some make }
  | addListener event action => d.addListener event action
  | addAttribute _ => d
  | build => d

end DraftCall

/-- A draft, with the types that have been built from it so far. -/
structure DraftHistory (Factory Action : Type) where
  draft : TypeDraft Factory Action
  built : List (EntityType Factory Action)

namespace DraftHistory

def start (name : String) : DraftHistory Factory Action :=
  ⟨.start name, []⟩

/-- What a call leaves behind, and the error when it fails. -/
def call (h : DraftHistory Factory Action) (c : DraftCall Factory Action) :
    DraftHistory Factory Action × Option DuplicateAttribute :=
  match c with
  | .addAttribute a =>
    match h.draft.addAttribute a with
    | .ok draft => ({ h with draft }, none)
    | .error e => (h, some e)
  | .build => ({ h with built := h.built ++ [h.draft.build] }, none)
  | c => ({ h with draft := c.set h.draft }, none)

/-- What a course of calls leaves behind. -/
def run (h : DraftHistory Factory Action) (calls : List (DraftCall Factory Action)) :
    DraftHistory Factory Action :=
  calls.foldl (fun h c => (h.call c).1) h

/-- The attribute of a call that does not fail. -/
def acceptedBy (h : DraftHistory Factory Action) (c : DraftCall Factory Action) :
    List Attribute :=
  if (h.call c).2.isNone then c.attribute?.toList else []

/-- The attributes whose calls do not fail, in the order of the calls. -/
def accepted (h : DraftHistory Factory Action) : List (DraftCall Factory Action) → List Attribute
  | [] => []
  | c :: calls => h.acceptedBy c ++ (h.call c).1.accepted calls

/-! ## One call -/

section Call

variable (h : DraftHistory Factory Action) {a : Attribute}

/-- An attempt fails if there is an attribute of its name, and changes nothing then. -/
theorem call_addAttribute_of_mem (ha : ∃ b ∈ h.draft.attributes, b.name = a.name) :
    h.call (.addAttribute a) = (h, some ⟨a.name, h.draft.name⟩) := by
  have hany : h.draft.attributes.any (·.name == a.name) = true := by simpa using ha
  simp [call, TypeDraft.addAttribute, hany]

theorem call_addAttribute_of_notMem (ha : ¬∃ b ∈ h.draft.attributes, b.name = a.name) :
    h.call (.addAttribute a) =
      ({ h with draft := { h.draft with attributes := h.draft.attributes ++ [a] } }, none) := by
  have hany : h.draft.attributes.any (·.name == a.name) = false := by simpa using ha
  simp [call, TypeDraft.addAttribute, hany]

theorem draft_call (c : DraftCall Factory Action) :
    (h.call c).1.draft =
      { c.set h.draft with attributes := h.draft.attributes ++ h.acceptedBy c } := by
  cases c with
  | addAttribute a =>
    by_cases ha : ∃ b ∈ h.draft.attributes, b.name = a.name
    · simp [acceptedBy, DraftCall.set, h.call_addAttribute_of_mem ha]
    · simp [acceptedBy, DraftCall.set, DraftCall.attribute?, h.call_addAttribute_of_notMem ha]
  | _ => simp [acceptedBy, DraftCall.set, DraftCall.attribute?, call, TypeDraft.addListener]

theorem built_call (c : DraftCall Factory Action) :
    (h.call c).1.built = h.built ++ if c.isBuild then [h.draft.build] else [] := by
  cases c with
  | addAttribute a =>
    by_cases ha : ∃ b ∈ h.draft.attributes, b.name = a.name
    · simp [h.call_addAttribute_of_mem ha, DraftCall.isBuild]
    · simp [h.call_addAttribute_of_notMem ha, DraftCall.isBuild]
  | _ => simp [call, DraftCall.isBuild]

/-- Accepted attributes have names that are new. -/
theorem nodup_call (c : DraftCall Factory Action)
    (hnodup : (h.draft.attributes.map (·.name)).Nodup) :
    ((h.call c).1.draft.attributes.map (·.name)).Nodup := by
  cases c with
  | addAttribute a =>
    by_cases ha : ∃ b ∈ h.draft.attributes, b.name = a.name
    · rwa [h.call_addAttribute_of_mem ha]
    · rw [h.call_addAttribute_of_notMem ha, List.map_append]
      exact hnodup.append (List.nodup_singleton _) (by simpa using ha)
  | _ => exact hnodup

end Call

/-! ## Courses of calls -/

section Run

variable (h : DraftHistory Factory Action)

theorem run_cons (c : DraftCall Factory Action) (calls : List (DraftCall Factory Action)) :
    h.run (c :: calls) = (h.call c).1.run calls := rfl

theorem run_append (before after : List (DraftCall Factory Action)) :
    h.run (before ++ after) = (h.run before).run after :=
  List.foldl_append

/-- The attributes of a draft are those that it had and those accepted since. -/
theorem attributes_run (calls : List (DraftCall Factory Action)) :
    (h.run calls).draft.attributes = h.draft.attributes ++ h.accepted calls := by
  induction calls generalizing h with
  | nil => exact (List.append_nil _).symm
  | cons c calls ih => rw [run_cons, ih, draft_call, accepted, List.append_assoc]

theorem nodup_run (calls : List (DraftCall Factory Action))
    (hnodup : (h.draft.attributes.map (·.name)).Nodup) :
    ((h.run calls).draft.attributes.map (·.name)).Nodup := by
  induction calls generalizing h with
  | nil => exact hnodup
  | cons c calls ih => exact ih _ (h.nodup_call c hnodup)

/-- What each call either sets or leaves is what the last call that sets it gives. -/
theorem setting_run {α : Type} (get : TypeDraft Factory Action → α)
    (given? : DraftCall Factory Action → Option α)
    (hset : ∀ c d as, get { DraftCall.set d c with attributes := as } = (given? c).getD (get d))
    (calls : List (DraftCall Factory Action)) :
    get (h.run calls).draft = (calls.filterMap given?).getLast?.getD (get h.draft) := by
  induction calls generalizing h with
  | nil => rfl
  | cons c calls ih =>
    rw [run_cons, ih, draft_call, hset]
    cases hc : given? c with
    | none => rw [List.filterMap_cons_none hc, Option.getD_none]
    | some value =>
      rw [List.filterMap_cons_some hc, List.getLast?_cons, Option.getD_some, Option.getD_some]

theorem listeners_run (calls : List (DraftCall Factory Action)) :
    (h.run calls).draft.listeners = h.draft.listeners ++ calls.filterMap (·.listener?) := by
  induction calls generalizing h with
  | nil => exact (List.append_nil _).symm
  | cons c calls ih =>
    rw [run_cons, ih, draft_call]
    cases c with
    | addListener event action => exact List.append_assoc _ _ _
    | _ => rfl

/-- What has been built stays. -/
theorem built_prefix_run (calls : List (DraftCall Factory Action)) :
    h.built <+: (h.run calls).built := by
  induction calls generalizing h with
  | nil => exact List.prefix_rfl
  | cons c calls ih =>
    refine List.IsPrefix.trans ?_ (ih _)
    rw [built_call]
    exact List.prefix_append _ _

theorem length_built_run (calls : List (DraftCall Factory Action)) :
    (h.run calls).built.length = h.built.length + calls.countP (·.isBuild) := by
  induction calls generalizing h with
  | nil => rfl
  | cons c calls ih =>
    rw [run_cons, ih, built_call, List.countP_cons]
    cases c.isBuild <;> simp [Nat.add_assoc, Nat.add_comm]

/-- A type that is built in a course of calls is found behind those built before it. -/
theorem getElem?_built_run (before after : List (DraftCall Factory Action)) :
    (h.run (before ++ .build :: after)).built[h.built.length + before.countP (·.isBuild)]? =
      some (h.run before).draft.build := by
  have hprefix := ((h.run before).call .build).1.built_prefix_run after
  rw [run_append, run_cons, ← length_built_run]
  refine (List.prefix_iff_getElem?.1 hprefix _ (by simp [built_call, DraftCall.isBuild])).trans ?_
  simp [built_call, DraftCall.isBuild]

end Run

/-! ## Notification -/

section Notification

/-- Whatever calls do, a notification is to call the actions of the event one after the other. -/
theorem notifyAll_eq {m : Type → Type} [Monad m] (event : LifecycleEvent) (call : Action → m Unit)
    (ls : List (EventListener Action)) :
    notifyAll event call ls = ((ls.filter (·.event == event)).map (·.action)).forM call := by
  induction ls with
  | nil => rfl
  | cons l ls ih =>
    rw [notifyAll, List.filter_cons, ih]
    split <;> rfl

/-- Calls an action that says something and may fail. -/
def hear (run : Action → String × Option String) (a : Action) :
    ExceptT String (StateM (List String)) Unit := do
  modify (· ++ [(run a).1])
  (run a).2.elim (pure ()) throw

/-- What is heard of actions that are called one after the other, up to the first that fails. -/
theorem run_forM_hear (run : Action → String × Option String) (as : List Action)
    (heard : List String) :
    (as.forM (hear run)).run heard =
      ((runActions run as).2.elim (.ok ()) .error, heard ++ (runActions run as).1) := by
  induction as generalizing heard with
  | nil => exact congrArg (Except.ok (), ·) (List.append_nil heard).symm
  | cons a as ih =>
    rcases hrun : run a with ⟨said, failure⟩
    rw [runActions, hrun]
    cases failure with
    | some failure =>
      show (hear run a >>= fun _ => as.forM (hear run)).run heard = _
      simp only [hear, hrun]
      rfl
    | none =>
      have hfirst : ((a :: as).forM (hear run)).run heard =
          (as.forM (hear run)).run (heard ++ [said]) := by
        show (hear run a >>= fun _ => as.forM (hear run)).run heard = _
        simp only [hear, hrun]
        rfl
      rw [hfirst, ih, List.append_assoc]
      rfl

end Notification

end DraftHistory

/-- A type is what a course of calls, all from the first one on, makes of it. -/
structure EntityType.DefinedBy (name : String) (calls : List (DraftCall Factory Action))
    (t : EntityType Factory Action) : Prop where
  name_eq : t.name = name
  tableName_eq : t.tableName = (calls.filterMap (·.tableName?)).getLast?.getD name
  isReadOnly_eq : t.isReadOnly = (calls.filterMap (·.readOnly?)).getLast?.getD false
  isStateless_eq : t.isStateless = (calls.filterMap (·.stateless?)).getLast?.getD false
  isImmutable_eq : t.isImmutable = (calls.filterMap (·.immutable?)).getLast?.getD false
  factory_eq : t.factory = (calls.filterMap (·.factory?)).getLast?
  attributes_eq : t.attributes = (DraftHistory.start name).accepted calls
  nodup_attributeNames : t.attributeNames.Nodup
  attributeNames_eq :
    t.attributeNames = ((DraftHistory.start name).accepted calls).map (·.name)
  keyAttributes_eq :
    t.keyAttributes = ((DraftHistory.start name).accepted calls).filter (·.isKey)
  attribute?_eq_some_iff (n : String) (a : Attribute) :
    t.attribute? n = some a ↔ a ∈ (DraftHistory.start name).accepted calls ∧ a.name = n
  actions_eq (event : LifecycleEvent) :
    t.actions event = ((calls.filterMap (·.listener?)).filter (·.event == event)).map (·.action)
  notify_eq {m : Type → Type} [Monad m] (event : LifecycleEvent) (call : Action → m Unit) :
    t.notify event call = (t.actions event).forM call
  heard_eq (run : Action → String × Option String) (event : LifecycleEvent) :
    (t.notify event (DraftHistory.hear run)).run [] =
      ((runActions run (t.actions event)).2.elim (.ok ()) .error,
        (runActions run (t.actions event)).1)

namespace DraftHistory

theorem accepted_eq (name : String) (calls : List (DraftCall Factory Action)) :
    ((start name).run calls).draft.attributes = (start name).accepted calls :=
  attributes_run _ _

theorem definedBy_build (name : String) (calls : List (DraftCall Factory Action)) :
    ((start name).run calls).draft.build.DefinedBy name calls where
  name_eq := by
    refine (setting_run (start name) (·.name) (fun _ => none) ?_ calls).trans ?_
    · exact fun c _ _ => by cases c <;> rfl
    · rw [List.filterMap_none]
      rfl
  tableName_eq :=
    setting_run _ (·.tableName) (·.tableName?) (fun c _ _ => by cases c <;> rfl) calls
  isReadOnly_eq :=
    setting_run _ (·.isReadOnly) (·.readOnly?) (fun c _ _ => by cases c <;> rfl) calls
  isStateless_eq :=
    setting_run _ (·.isStateless) (·.stateless?) (fun c _ _ => by cases c <;> rfl) calls
  isImmutable_eq :=
    setting_run _ (·.isImmutable) (·.immutable?) (fun c _ _ => by cases c <;> rfl) calls
  factory_eq := by
    have hlast := setting_run (start name) (·.factory)
      (fun c : DraftCall Factory Action => c.factory?.map some) (fun c _ _ => by cases c <;> rfl)
      calls
    rw [← List.map_filterMap, List.getLast?_map] at hlast
    refine hlast.trans ?_
    cases (calls.filterMap (·.factory?)).getLast? <;> rfl
  attributes_eq := accepted_eq name calls
  nodup_attributeNames := nodup_run _ calls List.nodup_nil
  attributeNames_eq := congrArg (List.map Attribute.name) (accepted_eq name calls)
  keyAttributes_eq := congrArg (List.filter Attribute.isKey) (accepted_eq name calls)
  attribute?_eq_some_iff n a := by
    rw [← accepted_eq]
    exact find?_eq_some_iff (nodup_run (start name) calls List.nodup_nil)
  actions_eq event := by
    have hlisteners : ((start name).run calls).draft.build.listeners =
        calls.filterMap (·.listener?) :=
      listeners_run _ calls
    rw [EntityType.actions, hlisteners]
  notify_eq event call := notifyAll_eq event call _
  heard_eq run event := by
    rw [EntityType.notify, notifyAll_eq]
    exact run_forM_hear run _ []

/-- An attempt to add an attribute fails exactly if one of its name has been accepted before, and
changes nothing then. What is built at any point is defined by the calls before it, and is found in
its place whatever is called after it. -/
theorem history_consistent (name : String) (before : List (DraftCall Factory Action)) :
    (∀ a, (((start name).run before).call (.addAttribute a) =
          ((start name).run before, some ⟨a.name, name⟩) ↔
        ∃ b ∈ (start name).accepted before, b.name = a.name) ∧
      ((((start name).run before).call (.addAttribute a)).2 = none ↔
        ¬∃ b ∈ (start name).accepted before, b.name = a.name)) ∧
    ((start name).run before).built.length = before.countP (·.isBuild) ∧
    ∃ t : EntityType Factory Action, t.DefinedBy name before ∧ ∀ after,
      ((start name).run (before ++ .build :: after)).built[before.countP (·.isBuild)]? =
        some t := by
  have hname : ((start name).run before).draft.name = name := (definedBy_build name before).name_eq
  refine ⟨fun a => ?_, ?_, _, definedBy_build name before, fun after => ?_⟩
  · rw [← accepted_eq]
    by_cases ha : ∃ b ∈ ((start name).run before).draft.attributes, b.name = a.name
    · simp [call_addAttribute_of_mem _ ha, ha, hname]
    · simp [call_addAttribute_of_notMem _ ha, ha]
  · simpa [start] using length_built_run (start name) before
  · simpa [start] using getElem?_built_run (start name) before after

end DraftHistory

end Metamodel
