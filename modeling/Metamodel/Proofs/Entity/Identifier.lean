import Metamodel.Proofs.Artifact.File
import Metamodel.Proofs.Entity.Constant
import Metamodel.Proofs.Entity.Naming
import Metamodel.Proofs.Text.Quoted

/-!
# Identifiers among names

Names are identifiers by their characters, whose case does not matter for this (`isIdentifier_iff`).
Hence a name in the basic alphabet is an identifier exactly when its constant is
(`isIdentifier_upperUnderscore_iff`), and a getter exactly when the name of its property is
(`Property.IsNamed.isIdentifier_name_iff`).
-/

namespace Metamodel

namespace Naming

/-- All characters are of the basic alphabet. -/
def IsAscii (name : String) : Prop :=
  ∀ c ∈ name.toList, c.toNat < 128

instance (name : String) : Decidable (IsAscii name) :=
  List.decidableBAll (fun c : Char => c.toNat < 128) name.toList

variable {name : String} {c : Char}

theorem isIdentifierChar_of_isIdentifierStart (h : isIdentifierStart c = true) :
    isIdentifierChar c = true := by
  simp only [isIdentifierStart, Bool.or_eq_true] at h
  simp only [isIdentifierChar, Char.isAlphanum, Bool.or_eq_true]
  exact h.imp_left fun h => h.imp_left Or.inl

theorem isIdentifier_iff : isIdentifier name = true ↔
    name.toList.head?.any isIdentifierStart = true ∧ ∀ c ∈ name.toList, isIdentifierChar c = true := by
  unfold isIdentifier
  cases hname : name.toList with
  | nil => simp
  | cons c cs =>
    rw [Bool.and_eq_true, List.all_eq_true, List.forall_mem_cons]
    exact and_congr_right fun hstart =>
      (and_iff_right (isIdentifierChar_of_isIdentifierStart hstart)).symm

theorem toNat_lt_of_isIdentifierChar (h : isIdentifierChar c = true) : c.toNat < 128 := by
  simp only [isIdentifierChar, Bool.or_eq_true, beq_iff_eq] at h
  rcases h with (h | rfl) | rfl
  · exact toNat_lt_of_isAlphanum h
  · decide
  · decide

theorem isAscii_of_isIdentifier (h : isIdentifier name = true) : IsAscii name := fun _ hc =>
  toNat_lt_of_isIdentifierChar (isIdentifierChar_of_mem h hc)

/-! ## Case -/

theorem isIdentifier_toUpper (hc : c.toNat < 128) :
    isIdentifierStart c.toUpper = isIdentifierStart c ∧
      isIdentifierChar c.toUpper = isIdentifierChar c :=
  Text.forall_ascii (P := fun c => isIdentifierStart c.toUpper = isIdentifierStart c ∧
    isIdentifierChar c.toUpper = isIdentifierChar c) (by decide) hc

theorem upperChar_of_lt (hc : c.toNat < 128) : Text.upperChar c = [c.toUpper] :=
  if_pos hc

theorem upper_eq_map {cs : List Char} (h : ∀ c ∈ cs, c.toNat < 128) :
    Text.upper cs = cs.map Char.toUpper := by
  unfold Text.upper
  rw [List.flatMap_congr fun c hc => upperChar_of_lt (h c hc), List.map_eq_flatMap]

theorem head?_separate (cs : List Char) : (separate cs).head? = cs.head? := by
  fun_induction separate cs with
  | case1 => rfl
  | case2 => rfl
  | case3 => rfl

theorem mem_separate_iff (hc : c ≠ '_') {cs : List Char} : c ∈ separate cs ↔ c ∈ cs := by
  fun_induction separate cs with
  | case1 a b rest _ ih =>
    rw [List.mem_cons, List.mem_cons, ih, List.mem_cons (a := c) (b := a)]
    simp [hc]
  | case2 a b rest _ ih => rw [List.mem_cons, ih, ← List.mem_cons]
  | case3 => rfl

theorem forall_mem_separate {P : Char → Prop} (h : P '_') {cs : List Char} :
    (∀ c ∈ separate cs, P c) ↔ ∀ c ∈ cs, P c := by
  have hother (c : Char) : (c ∈ separate cs → P c) ↔ (c ∈ cs → P c) := by
    by_cases hc : c = '_'
    · rw [hc]
      exact ⟨fun _ _ => h, fun _ _ => h⟩
    · rw [mem_separate_iff hc]
  exact forall_congr' hother

/-- The constant of a name is an identifier exactly when the name is. -/
theorem isIdentifier_upperUnderscore_iff (h : IsAscii name) :
    isIdentifier (upperUnderscore name) = true ↔ isIdentifier name = true := by
  have hascii : ∀ c ∈ separate name.toList, c.toNat < 128 :=
    (forall_mem_separate (by decide)).2 h
  rw [isIdentifier_iff, isIdentifier_iff, upperUnderscore_eq, String.toList_ofList,
    upper_eq_map hascii, List.head?_map, head?_separate, List.forall_mem_map]
  refine and_congr ?_ ?_
  · cases hname : name.toList with
    | nil => rfl
    | cons c cs =>
      have hc := h c (hname ▸ List.mem_cons_self)
      simp [(isIdentifier_toUpper hc).1]
  · rw [← forall_mem_separate (P := fun c => isIdentifierChar c = true) (by decide)]
    exact forall₂_congr fun c hc => by rw [(isIdentifier_toUpper (hascii c hc)).2]

theorem isIdentifierChar_of_mem_capitalize (h : isIdentifier name = true)
    (hc : c ∈ (capitalize name).toList) : isIdentifierChar c = true := by
  rw [capitalize, String.toList_ofList] at hc
  have hall := fun d => isIdentifierChar_of_mem h (c := d)
  cases hname : name.toList with
  | nil =>
    rw [hname] at hc
    cases hc
  | cons d cs =>
    rw [hname] at hc hall
    have hd := toNat_lt_of_isIdentifierChar (hall d List.mem_cons_self)
    rw [capitalizeChars, if_pos (by omega), upperChar_of_lt hd, List.singleton_append,
      List.mem_cons] at hc
    rcases hc with rfl | hc
    · rw [(isIdentifier_toUpper hd).2]
      exact hall d List.mem_cons_self
    · exact hall c (List.mem_cons_of_mem d hc)

/-- What cannot stand for itself between quotes is in no identifier. -/
theorem isVerbatim_of_isIdentifier (h : isIdentifier name = true) : Text.IsVerbatim name.toList := by
  have hmarks : Text.quoteMarks.all (!isIdentifierChar ·) = true := by decide
  intro c hc hmem
  have hother := List.all_eq_true.1 hmarks c hc
  rw [isIdentifierChar_of_mem h hmem] at hother
  cases hother

/-- A name behind a prefix. -/
theorem isIdentifier_prefixed {word : String} (hword : isIdentifier word = true)
    (h : isIdentifier name = true) : isIdentifier (word ++ capitalize name) = true :=
  isIdentifier_append hword (List.all_eq_true.2 fun _ hc => isIdentifierChar_of_mem_capitalize h hc)

/-- A name between an identifier and other characters of identifiers. -/
theorem isIdentifier_wrapped {word tail : String} (hword : isIdentifier word = true)
    (h : isIdentifier name = true) (htail : tail.toList.all isIdentifierChar = true) :
    isIdentifier (word ++ name ++ tail) = true := by
  refine isIdentifier_append (isIdentifier_append hword ?_) htail
  exact List.all_eq_true.2 fun _ hc => isIdentifierChar_of_mem h hc

/-! ## Getters -/

theorem exists_of_propertyOfGetter? {method : String} (h : propertyOfGetter? method = some name) :
    ∃ word ∈ ["get", "is"], ∃ c cs, isCapital c = true ∧ method.toList = word.toList ++ c :: cs ∧
      name.toList = Text.lowerChar c ++ cs := by
  obtain ⟨ds, hds, rfl⟩ := Option.map_eq_some_iff.1 h
  obtain ⟨word, hword, hrest⟩ := List.exists_of_findSome?_eq_some hds
  obtain ⟨rest, hafter, hsmall⟩ := Option.bind_eq_some_iff.1 hrest
  have hmethod := after?_eq_some_iff.1 hafter
  cases rest with
  | nil => cases hsmall
  | cons c cs =>
    obtain ⟨hcapital, hsome⟩ := Option.ite_none_right_eq_some.1 hsmall
    have hname : (String.ofList ds).toList = Text.lowerChar c ++ cs := by
      rw [String.toList_ofList, ← Option.some.inj hsome]
    rw [List.mem_pair] at hword
    rcases hword with rfl | rfl
    · exact ⟨"get", by decide, c, cs, hcapital, hmethod, hname⟩
    · exact ⟨"is", by decide, c, cs, hcapital, hmethod, hname⟩

theorem lowerChar_of_isCapital (hc : c.toNat < 128) (h : isCapital c = true) :
    isIdentifierChar c = true ∧ ∃ d, Text.lowerChar c = [d] ∧ isIdentifierStart d = true ∧
      d.toNat < 128 := by
  have hlower : Text.lowerChar c = [c.toLower] := if_pos hc
  have hletter := Text.forall_ascii (P := fun c => isCapital c = true → isIdentifierChar c = true ∧
    isIdentifierStart c.toLower = true ∧ c.toLower.toNat < 128) (by decide) hc h
  exact ⟨hletter.1, c.toLower, hlower, hletter.2⟩

/-- A getter in the basic alphabet has a property of such a name, which is an identifier exactly when
the getter is. -/
theorem isIdentifier_of_propertyOfGetter? {method : String} (hascii : IsAscii method)
    (h : propertyOfGetter? method = some name) :
    IsAscii name ∧ (isIdentifier name = true ↔ isIdentifier method = true) := by
  obtain ⟨word, hword, c, cs, hcapital, hmethod, hname⟩ := exists_of_propertyOfGetter? h
  unfold IsAscii at hascii ⊢
  rw [hmethod, List.forall_mem_append, List.forall_mem_cons] at hascii
  obtain ⟨-, hc, hcs⟩ := hascii
  obtain ⟨hchar, d, hlower, hstart, hd⟩ := lowerChar_of_isCapital hc hcapital
  have hprefix : ∀ w ∈ ["get", "is"], w.toList.head?.any isIdentifierStart = true ∧ w ≠ "" ∧
      w.toList.all isIdentifierChar = true := by decide
  obtain ⟨hfirst, hne, hall⟩ := hprefix word hword
  have hhead : (word.toList ++ c :: cs).head? = word.toList.head? :=
    List.head?_append_of_ne_nil _ (mt String.toList_eq_nil_iff.1 hne)
  rw [isIdentifier_iff, isIdentifier_iff, hmethod, hname, hlower, hhead]
  refine ⟨List.forall_mem_cons.2 ⟨hd, hcs⟩, ?_⟩
  simp only [List.singleton_append, List.head?_cons, Option.any_some, hstart, hfirst, true_and,
    List.forall_mem_append, List.forall_mem_cons, hchar, isIdentifierChar_of_isIdentifierStart hstart]
  exact (and_iff_right (List.all_eq_true.1 hall)).symm

end Naming

namespace Property.IsNamed

open Naming

variable {p : Property}

/-- A property has the name of its member as far as it matters for identifiers. -/
theorem isIdentifier_name_iff (hp : p.IsNamed) (hascii : IsAscii p.memberName) :
    IsAscii p.name ∧ (isIdentifier p.name = true ↔ isIdentifier p.memberName = true) := by
  by_cases hkind : p.memberKind = .method
  · exact isIdentifier_of_propertyOfGetter? hascii (hp.getter hkind)
  · rw [← hp.memberName_eq hkind]
    exact ⟨hascii, Iff.rfl⟩

theorem isIdentifier_name (hp : p.IsNamed) (h : isIdentifier p.memberName = true) :
    isIdentifier p.name = true :=
  (hp.isIdentifier_name_iff (isAscii_of_isIdentifier h)).2.2 h

end Property.IsNamed

end Metamodel
