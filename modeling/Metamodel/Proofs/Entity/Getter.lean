import Metamodel.Entity.Extraction
import Metamodel.Proofs.Entity.Identifier

/-!
# Getters and their properties

A getter in the basic alphabet is one of the two prefixes and the capitalized name of its property,
which begins with a small letter (`propertyOfGetter?_eq_some_iff`). So a property of such a name is
read off the getter that is named for it, a getter and its property have the same setter, and the
getters of one property differ at most in their prefix (`getters_tell_properties`).
-/

namespace Metamodel

namespace Naming

variable {method method' name : String}

/-- A capital of the basic alphabet is the capital of its small letter. -/
theorem small_of_isCapital {c : Char} (hc : c.toNat < 128) (h : isCapital c = true) :
    Text.lowerChar c = [c.toLower] ∧ c.toLower.isLower = true ∧
      ∀ cs, capitalizeChars (c.toLower :: cs) = c :: cs := by
  have hletter := Text.forall_ascii (P := fun c => isCapital c = true →
    Text.lowerChar c = [c.toLower] ∧ c.toLower.isLower = true ∧ c.toLower.toNat < 0x10000 ∧
      Text.upperChar c.toLower = [c]) (by decide) hc h
  obtain ⟨hlower, hsmall, hplane, hback⟩ := hletter
  refine ⟨hlower, hsmall, fun cs => ?_⟩
  rw [capitalizeChars, if_pos hplane, hback, List.singleton_append]

/-- The getters in the basic alphabet are the prefixed names of properties, which begin with a small
letter. -/
theorem propertyOfGetter?_eq_some_iff (hascii : IsAscii method) :
    propertyOfGetter? method = some name ↔
      IsSmall name ∧ ∃ word ∈ ["get", "is"], method = word ++ capitalize name := by
  constructor
  · intro h
    obtain ⟨word, hword, c, cs, hcapital, hmethod, hname⟩ := exists_of_propertyOfGetter? h
    have hc : c.toNat < 128 := by
      refine hascii c ?_
      rw [hmethod]
      exact List.mem_append_right _ List.mem_cons_self
    obtain ⟨hlower, hsmall, hback⟩ := small_of_isCapital hc hcapital
    rw [hlower, List.singleton_append] at hname
    refine ⟨⟨c.toLower, cs, hname, hsmall⟩, word, hword, String.toList_inj.1 ?_⟩
    rw [hmethod, String.toList_append, capitalize, String.toList_ofList, hname, hback]
  · rintro ⟨hsmall, word, hword, rfl⟩
    exact propertyOfGetter?_capitalize hword hsmall

/-- Getters of one property are equal, or differ in their prefix alone. -/
theorem getters_of_one_property (hascii : IsAscii method) (hascii' : IsAscii method')
    (h : propertyOfGetter? method = some name) (h' : propertyOfGetter? method' = some name) :
    method = method' ∨ (method = "get" ++ capitalize name ∧ method' = "is" ++ capitalize name) ∨
      (method = "is" ++ capitalize name ∧ method' = "get" ++ capitalize name) := by
  obtain ⟨-, word, hword, rfl⟩ := (propertyOfGetter?_eq_some_iff hascii).1 h
  obtain ⟨-, word', hword', rfl⟩ := (propertyOfGetter?_eq_some_iff hascii').1 h'
  rw [List.mem_pair] at hword hword'
  rcases hword with rfl | rfl <;> rcases hword' with rfl | rfl
  · exact Or.inl rfl
  · exact Or.inr (Or.inl ⟨rfl, rfl⟩)
  · exact Or.inr (Or.inr ⟨rfl, rfl⟩)
  · exact Or.inl rfl

end Naming

open Naming

/-- A method maps to what its name stands for. -/
theorem Member.propertyOfGetter?_name {m : Member} {name : String} (hkind : m.kind = .method)
    (h : m.propertyName? = some name) : propertyOfGetter? m.name = some name := by
  unfold Member.propertyName? at h
  rw [Option.ite_none_left_eq_some, if_neg (not_not.2 hkind), Option.ite_none_left_eq_some] at h
  exact h.2.2

/-- Naming a getter and reading one are inverse. The property of a name with a small initial is read
off the getter that is named for it, whatever its type. A getter in the basic alphabet is a prefix and
the capitalized name of the property that is read off it, which the property's setter has behind `set`.
So two methods that map to one property are equal or differ in the prefix alone. -/
theorem getters_tell_properties :
    (∀ (p : Property) (style : NameStyle), style.isPlain = false → IsSmall p.name →
      propertyOfGetter? (p.getterName style) = some p.name) ∧
    (∀ method name : String, IsAscii method → propertyOfGetter? method = some name →
      IsSmall name ∧ (method = "get" ++ capitalize name ∨ method = "is" ++ capitalize name) ∧
      ∀ (p : Property) (style : NameStyle), style.isPlain = false → p.name = name →
        p.setterName style = "set" ++ capitalize name) ∧
    ∀ (m m' : Member) (name : String), m.kind = .method → m'.kind = .method →
      IsAscii m.name → IsAscii m'.name → m.propertyName? = some name →
      m'.propertyName? = some name →
      m.name = m'.name ∨
        (m.name = "get" ++ capitalize name ∧ m'.name = "is" ++ capitalize name) ∨
        (m.name = "is" ++ capitalize name ∧ m'.name = "get" ++ capitalize name) := by
  refine ⟨fun p style hstyle hsmall => ?_, fun method name hascii h => ?_, ?_⟩
  · have hword : (if p.type.isBoolean then "is" else "get") ∈ ["get", "is"] := by
      cases p.type.isBoolean <;> decide
    rw [Property.getterName_of_not_isPlain hstyle]
    exact propertyOfGetter?_capitalize hword hsmall
  · obtain ⟨hsmall, word, hword, hmethod⟩ := (propertyOfGetter?_eq_some_iff hascii).1 h
    refine ⟨hsmall, ?_, fun p style hstyle hname => ?_⟩
    · rw [List.mem_pair] at hword
      rcases hword with rfl | rfl
      · exact Or.inl hmethod
      · exact Or.inr hmethod
    · rw [Property.setterName_of_not_isPlain hstyle, hname]
  · intro m m' name hkind hkind' hascii hascii' h h'
    exact getters_of_one_property hascii hascii' (m.propertyOfGetter?_name hkind h)
      (m'.propertyOfGetter?_name hkind' h')

namespace Sample

/-- A getter of a name and a type, which takes nothing. -/
def urlGetter (name : String) (type : TypeRef) : Member :=
  ⟨name, .method, some 0, type, none, none, none⟩

end Sample

/-- `getIs` has the property `is`, and `is` alone, `island` and `getter` have none. The property `uRL`
has the getters `getURL` and `isURL`, of which the second is the one for truth values. -/
theorem getters_of_url :
    (["getIs", "is", "island", "getter", "getURL", "isURL"].map propertyOfGetter? =
      [some "is", none, none, none, some "uRL", some "uRL"]) ∧
    ("getURL" = "isURL" ∨
      ("getURL" = "get" ++ capitalize "uRL" ∧ "isURL" = "is" ++ capitalize "uRL") ∨
      ("getURL" = "is" ++ capitalize "uRL" ∧ "isURL" = "get" ++ capitalize "uRL")) := by
  refine ⟨by decide +kernel, ?_⟩
  exact getters_tell_properties.2.2 (Sample.urlGetter "getURL" (.primitive "string"))
    (Sample.urlGetter "isURL" (.primitive "boolean")) "uRL" rfl rfl (by decide) (by decide)
    (by decide +kernel) (by decide +kernel)

end Metamodel
