import Metamodel.EntityType.Attribute

/-!
# Entity types

What generated metadata knows of one mapped type at run time. A type is defined step by step with
a `TypeDraft` and built any number of times; what is built does not change when the draft does.
No two attributes of a type have one name.
-/

namespace Metamodel

/-- What is called with an entity when an event occurs. -/
structure EventListener (Action : Type) where
  event : LifecycleEvent
  action : Action

/-- A mapped type, with a factory of its instances. -/
structure EntityType (Factory Action : Type) where
  name : String
  tableName : String
  isReadOnly : Bool
  isStateless : Bool
  isImmutable : Bool
  factory : Option Factory
  attributes : List Attribute
  listeners : List (EventListener Action)

namespace EntityType

variable {Factory Action : Type}

def attributeNames (t : EntityType Factory Action) : List String :=
  t.attributes.map (·.name)

/-- The attributes that make up the key. -/
def keyAttributes (t : EntityType Factory Action) : List Attribute :=
  t.attributes.filter (·.isKey)

/-- The attribute of a name. -/
def attribute? (t : EntityType Factory Action) (name : String) : Option Attribute :=
  t.attributes.find? (·.name == name)

/-- What is to be called when an event occurs, in the order of registration. -/
def actions (t : EntityType Factory Action) (event : LifecycleEvent) : List Action :=
  (t.listeners.filter (·.event == event)).map (·.action)

end EntityType

/-- Goes through listeners and calls those of an event, whatever a call does. -/
def notifyAll {Action : Type} {m : Type → Type} [Monad m] (event : LifecycleEvent)
    (call : Action → m Unit) : List (EventListener Action) → m Unit
  | [] => pure ()
  | l :: rest =>
    if l.event == event then do
      call l.action
      notifyAll event call rest
    else notifyAll event call rest

/-- Notifies the listeners of a type that an event has occurred. -/
def EntityType.notify {Factory Action : Type} {m : Type → Type} [Monad m]
    (t : EntityType Factory Action) (event : LifecycleEvent) (call : Action → m Unit) : m Unit :=
  notifyAll event call t.listeners

/-- An attribute name that a type has already. -/
structure DuplicateAttribute where
  attributeName : String
  typeName : String
  deriving DecidableEq

def DuplicateAttribute.message (e : DuplicateAttribute) : String :=
  "Duplicate attribute " ++ e.attributeName ++ " on " ++ e.typeName

/-- A type that is being defined. -/
structure TypeDraft (Factory Action : Type) extends EntityType Factory Action

namespace TypeDraft

variable {Factory Action : Type}

/-- A draft with nothing but a name, which is the table's name too. -/
def start (name : String) : TypeDraft Factory Action :=
  ⟨⟨name, name, false, false, false, none, [], []⟩⟩

/-- The draft with one more attribute, unless there is one of its name. -/
def addAttribute (d : TypeDraft Factory Action) (a : Attribute) :
    Except DuplicateAttribute (TypeDraft Factory Action) :=
  if d.attributes.any (·.name == a.name) then .error ⟨a.name, d.name⟩
  else .ok { d with attributes := d.attributes ++ [a] }

/-- The draft with one more listener. -/
def addListener (d : TypeDraft Factory Action) (event : LifecycleEvent) (action : Action) :
    TypeDraft Factory Action :=
  { d with listeners := d.listeners ++ [⟨event, action⟩] }

/-- The type as it is defined so far. -/
def build (d : TypeDraft Factory Action) : EntityType Factory Action :=
  d.toEntityType

end TypeDraft

/-- Calls the actions in turn until one fails; gives what they had to say and the error. -/
def runActions {Action : Type} (run : Action → String × Option String) :
    List Action → List String × Option String
  | [] => ([], none)
  | a :: rest =>
    match run a with
    | (said, some failure) => ([said], some failure)
    | (said, none) =>
      let (heard, failure) := runActions run rest
      (said :: heard, failure)

end Metamodel
