import Metamodel.Entity.Naming
import Metamodel.Proofs.Text.CaseMap
import Metamodel.Proofs.Text.Collation

/-!
# Names of properties and their members

A getter or setter that is named by a prefix has neither the name of the property nor that of the
member which the property is read off, so that nothing of the declared type is hidden by it.
-/

namespace Metamodel

/-- Whether getters and setters have the name of the property itself. -/
def NameStyle.isPlain : NameStyle → Bool
  | .fluent | .none => true
  | .bean | .fluentBean => false

/-- The property has a name, which is that of its member or, for a method, the one that the getter
stands for. -/
structure Property.IsNamed (p : Property) : Prop where
  name_ne : p.name ≠ ""
  memberName_eq : p.memberKind ≠ .method → p.memberName = p.name
  getter : p.memberKind = .method → Naming.propertyOfGetter? p.memberName = some p.name

namespace Naming

/-! ## Prefixed names -/

theorem length_capitalizeChars (cs : List Char) : cs.length ≤ (capitalizeChars cs).length + 1 := by
  cases cs with
  | nil => exact Nat.zero_le _
  | cons c cs =>
    show (c :: cs).length ≤ (if c.toNat < 0x10000 then Text.upperChar c ++ cs else c :: cs).length + 1
    split
    · rw [List.length_append, List.length_cons]
      omega
    · exact Nat.le_succ _

/-- A capital may be written with no more than the letter less, and a prefix has two letters. -/
theorem prefixed_ne {word : String} (hword : 2 ≤ word.length) (name : String) :
    word ++ capitalize name ≠ name := by
  -- equal names would have equal lengths
  intro h
  have hlength := congrArg String.length h
  have hcapital := length_capitalizeChars name.toList
  rw [String.length_append] at hlength
  unfold capitalize at hlength
  rw [String.length_ofList] at hlength
  rw [String.length_toList] at hcapital
  omega

theorem prefixed_ne_empty {word : String} (hword : 2 ≤ word.length) (rest : String) :
    word ++ rest ≠ "" := by
  intro h
  have hlength := congrArg String.length h
  rw [String.length_append, String.length_empty] at hlength
  omega

theorem after?_eq_some_iff {word text rest : List Char} :
    after? word text = some rest ↔ text = word ++ rest := by
  unfold after?
  split
  · rename_i h
    obtain ⟨tail, rfl⟩ := List.isPrefixOf_iff_prefix.1 h
    rw [List.drop_left, Option.some.injEq, List.append_cancel_left_eq]
  · rename_i h
    refine ⟨nofun, ?_⟩
    rintro rfl
    exact absurd (List.isPrefixOf_iff_prefix.2 (List.prefix_append word rest)) h

/-- A getter begins with one of its two prefixes. -/
theorem exists_prefix_of_propertyOfGetter? {method name : String}
    (h : propertyOfGetter? method = some name) :
    ∃ word ∈ ["get".toList, "is".toList], word <+: method.toList := by
  obtain ⟨cs, hcs, -⟩ := Option.map_eq_some_iff.1 h
  obtain ⟨word, hword, hrest⟩ := List.exists_of_findSome?_eq_some hcs
  refine ⟨word, hword, ?_⟩
  obtain ⟨rest, hafter, -⟩ := Option.bind_eq_some_iff.1 hrest
  exact ⟨rest, (after?_eq_some_iff.1 hafter).symm⟩

theorem head_of_propertyOfGetter? {method name : String}
    (h : propertyOfGetter? method = some name) :
    method.toList.head? = some 'g' ∨ method.toList.head? = some 'i' := by
  obtain ⟨word, hword, hprefix⟩ := exists_prefix_of_propertyOfGetter? h
  obtain ⟨rest, hrest⟩ := hprefix
  rw [← hrest]
  rcases List.mem_cons.1 hword with rfl | hword
  · exact Or.inl rfl
  · rw [List.mem_singleton] at hword
    subst hword
    exact Or.inr rfl

theorem getter_ne_empty {method name : String} (h : propertyOfGetter? method = some name) :
    method ≠ "" := by
  rintro rfl
  rcases head_of_propertyOfGetter? h with h | h <;> cases h

/-- No setter has the name of a getter. -/
theorem set_ne_getter {method name : String} (h : propertyOfGetter? method = some name)
    (rest : String) : "set" ++ rest ≠ method := by
  rintro rfl
  have hhead : ("set" ++ rest).toList.head? = some 's' := by
    rw [String.toList_append]
    rfl
  rcases head_of_propertyOfGetter? h with h | h
  · rw [hhead] at h
    cases h
  · rw [hhead] at h
    cases h

/-! ## Small initial letters -/

/-- The name begins with a small letter of the basic alphabet. -/
def IsSmall (name : String) : Prop :=
  ∃ c cs, name.toList = c :: cs ∧ c.isLower = true

variable {name name' : String}

theorem toList_capitalize (h : IsSmall name) : ∃ c cs, (capitalize name).toList = c :: cs ∧
    isCapital c = true ∧ Text.lowerChar c ++ cs = name.toList := by
  obtain ⟨c, cs, hname, hlower⟩ := h
  have hc : c.toNat < 128 := by
    have hbounds := Text.isLower_iff.1 hlower
    omega
  have hletter : c.isLower = true → Text.upperChar c = [c.toUpper] ∧ isCapital c.toUpper = true ∧
      Text.lowerChar c.toUpper = [c] :=
    Text.forall_ascii (P := fun c => c.isLower = true → Text.upperChar c = [c.toUpper] ∧
      isCapital c.toUpper = true ∧ Text.lowerChar c.toUpper = [c]) (by decide) hc
  obtain ⟨hupper, hcapital, hsmall⟩ := hletter hlower
  refine ⟨c.toUpper, cs, ?_, hcapital, ?_⟩
  · unfold capitalize
    rw [String.toList_ofList, hname, capitalizeChars, if_pos (by omega), hupper]
    rfl
  · rw [hsmall, hname]
    rfl

/-- The property of such a name is read off its getter. -/
theorem propertyOfGetter?_capitalize {word : String} (hword : word ∈ ["get", "is"])
    (h : IsSmall name) : propertyOfGetter? (word ++ capitalize name) = some name := by
  obtain ⟨c, cs, hlist, hcapital, hsmall⟩ := toList_capitalize h
  have hrest : uncapitalized? (c :: cs) = some name.toList := by
    rw [uncapitalized?, if_pos hcapital, hsmall]
  have hfound : (["get".toList, "is".toList].findSome? fun prefix? =>
      (after? prefix? (word ++ capitalize name).toList).bind uncapitalized?) = some name.toList := by
    rw [String.toList_append, hlist]
    rw [List.mem_pair] at hword
    rcases hword with rfl | rfl
    · have hafter : after? "get".toList ("get".toList ++ c :: cs) = some (c :: cs) :=
        after?_eq_some_iff.2 rfl
      rw [List.findSome?_cons, hafter, Option.bind_some, hrest]
    · have hget : after? "get".toList ("is".toList ++ c :: cs) = none := rfl
      have hafter : after? "is".toList ("is".toList ++ c :: cs) = some (c :: cs) :=
        after?_eq_some_iff.2 rfl
      rw [List.findSome?_cons, hget, Option.bind_none, List.findSome?_cons, hafter, Option.bind_some,
        hrest]
  unfold propertyOfGetter?
  rw [hfound, Option.map_some, String.ofList_toList]

theorem capitalize_inj (h : IsSmall name) (h' : IsSmall name') (heq : capitalize name = capitalize name') :
    name = name' := by
  have hword : "get" ∈ ["get", "is"] := List.mem_cons_self
  have hget := propertyOfGetter?_capitalize hword h
  rw [heq, propertyOfGetter?_capitalize hword h'] at hget
  exact (Option.some.inj hget).symm

end Naming

namespace Property

variable {p : Property} {style : NameStyle}

theorem setterName_eq (p : Property) (style : NameStyle) : p.setterName style =
    if style.isPlain then p.name else "set" ++ Naming.capitalize p.name := by
  cases style <;> rfl

theorem getterName_eq (p : Property) (style : NameStyle) : p.getterName style =
    if style.isPlain then p.name
    else (if p.type.isBoolean then "is" else "get") ++ Naming.capitalize p.name := by
  cases style <;> rfl

theorem setterName_of_isPlain (h : style.isPlain = true) : p.setterName style = p.name := by
  rw [setterName_eq, if_pos h]

theorem getterName_of_isPlain (h : style.isPlain = true) : p.getterName style = p.name := by
  rw [getterName_eq, if_pos h]

theorem setterName_of_not_isPlain (h : style.isPlain = false) :
    p.setterName style = "set" ++ Naming.capitalize p.name := by
  rw [setterName_eq, if_neg (Bool.eq_false_iff.1 h)]

theorem getterName_of_not_isPlain (h : style.isPlain = false) :
    p.getterName style =
      (if p.type.isBoolean then "is" else "get") ++ Naming.capitalize p.name := by
  rw [getterName_eq, if_neg (Bool.eq_false_iff.1 h)]

theorem setterName_ne_name (h : style.isPlain = false) : p.setterName style ≠ p.name := by
  rw [setterName_of_not_isPlain h]
  exact Naming.prefixed_ne (by decide) p.name

theorem le_length_getterPrefix (type : TypeRef) :
    2 ≤ (if type.isBoolean then "is" else "get").length := by
  cases type.isBoolean <;> decide

theorem getterName_ne_name (h : style.isPlain = false) : p.getterName style ≠ p.name := by
  rw [getterName_of_not_isPlain h]
  exact Naming.prefixed_ne (le_length_getterPrefix p.type) p.name

namespace IsNamed

theorem memberName_ne (hp : p.IsNamed) : p.memberName ≠ "" := by
  by_cases hkind : p.memberKind = .method
  · exact Naming.getter_ne_empty (hp.getter hkind)
  · rw [hp.memberName_eq hkind]
    exact hp.name_ne

theorem setterName_ne_memberName (hp : p.IsNamed) (h : style.isPlain = false) :
    p.setterName style ≠ p.memberName := by
  by_cases hkind : p.memberKind = .method
  · rw [setterName_of_not_isPlain h]
    exact Naming.set_ne_getter (hp.getter hkind) _
  · rw [hp.memberName_eq hkind]
    exact setterName_ne_name h

theorem setterName_ne_empty (hp : p.IsNamed) : p.setterName style ≠ "" := by
  cases h : style.isPlain with
  | true =>
    rw [setterName_of_isPlain h]
    exact hp.name_ne
  | false =>
    rw [setterName_of_not_isPlain h]
    exact Naming.prefixed_ne_empty (by decide) _

theorem getterName_ne_empty (hp : p.IsNamed) : p.getterName style ≠ "" := by
  cases h : style.isPlain with
  | true =>
    rw [getterName_of_isPlain h]
    exact hp.name_ne
  | false =>
    rw [getterName_of_not_isPlain h]
    exact Naming.prefixed_ne_empty (le_length_getterPrefix p.type) _

end IsNamed

end Property

end Metamodel
