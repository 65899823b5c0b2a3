import Metamodel.Entity.Naming
import Metamodel.Proofs.Text.CaseMap
import Metamodel.Proofs.Text.Collation

/-!
# Names as constants

A constant shows the words of a name and nothing of their case: `homeURL` and `homeUrl` are one
constant. `words` cuts a name in one pass where `upperUnderscore` puts underscores in two, so names
are one constant exactly when they have the same words (`upperUnderscore_eq_iff`). Names in camel case
can be read off their constants (`upperUnderscore_inj`).
-/

namespace Metamodel

namespace Naming

/-- Whether a word begins at the character, by the characters before and behind it. -/
def startsWord (before c : Char) (after : Option Char) : Bool :=
  isLowerOrDigit before && c.isUpper || before.isUpper && c.isUpper && after.any (·.isLower)

/-- The text with an underscore before each word that begins in it. -/
def separate : List Char → List Char
  | a :: b :: rest =>
    if startsWord a b rest.head? then a :: '_' :: separate (b :: rest) else a :: separate (b :: rest)
  | cs => cs

/-- The words of a name, which begin behind underscores and where the case changes. -/
def words (name : String) : List (List Char) :=
  Text.split '_' (separate name.toList)

/-- The names have the same words, apart from the case. -/
def SameWords (a b : String) : Prop :=
  (words a).map Text.upper = (words b).map Text.upper

/-- A small letter, and then letters and digits among which no two capitals stand side by side. -/
structure IsCamelCase (name : String) : Prop where
  first : name.toList.head?.all (·.isLower) = true
  alphanumeric : ∀ c ∈ name.toList, c.isAlphanum = true
  single : name.toList.IsChain fun a b => ¬ (a.isUpper = true ∧ b.isUpper = true)

instance (name : String) : Decidable (IsCamelCase name) :=
  decidable_of_iff (name.toList.head?.all (·.isLower) = true ∧
      name.toList.all (·.isAlphanum) = true ∧
      name.toList.IsChain fun a b => ¬ (a.isUpper = true ∧ b.isUpper = true))
    ⟨fun ⟨first, alphanumeric, single⟩ => ⟨first, List.all_eq_true.1 alphanumeric, single⟩,
      fun h => ⟨h.first, List.all_eq_true.2 h.alphanumeric, h.single⟩⟩

/-! ## Two passes in one -/

theorem isUpper_eq_false_of_isLowerOrDigit {c : Char} (h : isLowerOrDigit c = true) :
    c.isUpper = false := by
  rw [← Bool.not_eq_true, Text.isUpper_iff]
  simp only [isLowerOrDigit, Bool.or_eq_true, Text.isLower_iff, Text.isDigit_iff] at h
  omega

theorem breakBeforeCapital_cons (b : Char) (rest : List Char) :
    ∃ tail, breakBeforeCapital (b :: rest) = b :: tail ∧
      (isLowerOrDigit b = false → tail.head? = rest.head?) := by
  cases rest with
  | nil => exact ⟨[], rfl, fun _ => rfl⟩
  | cons c rest =>
    unfold breakBeforeCapital
    split
    · rename_i h
      refine ⟨_, rfl, fun hb => ?_⟩
      rw [hb] at h
      cases h
    · refine ⟨_, rfl, fun _ => ?_⟩
      cases rest with
      | nil => rfl
      | cons d rest =>
        unfold breakBeforeCapital
        split <;> rfl

theorem breakAfterCapitals_cons (a b : Char) (tail : List Char) :
    breakAfterCapitals (a :: b :: tail) =
      if a.isUpper && b.isUpper && tail.head?.any (·.isLower) then
        a :: '_' :: breakAfterCapitals (b :: tail)
      else a :: breakAfterCapitals (b :: tail) := by
  cases tail with
  | nil => simp [breakAfterCapitals]
  | cons c tail => rfl

theorem breakAfterCapitals_of_not_isUpper {a : Char} (h : a.isUpper = false) (b : Char)
    (tail : List Char) : breakAfterCapitals (a :: b :: tail) = a :: breakAfterCapitals (b :: tail) := by
  rw [breakAfterCapitals_cons, h]
  rfl

theorem breakAfterCapitals_breakBeforeCapital (cs : List Char) :
    breakAfterCapitals (breakBeforeCapital cs) = separate cs := by
  fun_induction separate cs with
  | case1 a b rest hstarts ih =>
    obtain ⟨tail, htail, hhead⟩ := breakBeforeCapital_cons b rest
    rw [htail] at ih
    by_cases hbefore : (isLowerOrDigit a && b.isUpper) = true
    · have ha : a.isUpper = false := by
        rw [Bool.and_eq_true] at hbefore
        exact isUpper_eq_false_of_isLowerOrDigit hbefore.1
      rw [breakBeforeCapital, if_pos hbefore, htail, breakAfterCapitals_of_not_isUpper ha,
        breakAfterCapitals_of_not_isUpper (by decide), ih]
    · have hcapitals : (a.isUpper && b.isUpper && rest.head?.any (·.isLower)) = true := by
        rw [startsWord, Bool.or_eq_true] at hstarts
        exact hstarts.resolve_left hbefore
      have hb : isLowerOrDigit b = false := by
        rw [← Bool.not_eq_true]
        intro hb
        rw [isUpper_eq_false_of_isLowerOrDigit hb] at hcapitals
        simp at hcapitals
      rw [breakBeforeCapital, if_neg hbefore, htail, breakAfterCapitals_cons, hhead hb,
        if_pos hcapitals, ih]
  | case2 a b rest hstarts ih =>
    obtain ⟨tail, htail, hhead⟩ := breakBeforeCapital_cons b rest
    rw [htail] at ih
    rw [startsWord, Bool.or_eq_true, not_or] at hstarts
    obtain ⟨hbefore, hcapitals⟩ := hstarts
    have hcapitals' : ¬ (a.isUpper && b.isUpper && tail.head?.any (·.isLower)) = true := by
      by_cases hb : isLowerOrDigit b = true
      · rw [isUpper_eq_false_of_isLowerOrDigit hb]
        simp
      · rw [hhead (by simpa using hb)]
        exact hcapitals
    rw [breakBeforeCapital, if_neg hbefore, htail, breakAfterCapitals_cons, if_neg hcapitals', ih]
  | case3 cs hshort =>
    match cs, hshort with
    | [], _ => rfl
    | [_], _ => rfl
    | a :: b :: rest, hshort => exact absurd rfl (hshort a b rest)

theorem upperUnderscore_eq (name : String) :
    upperUnderscore name = String.ofList (Text.upper (separate name.toList)) := by
  rw [upperUnderscore, breakAfterCapitals_breakBeforeCapital]

/-- Names are one constant exactly when they have the same words. -/
theorem upperUnderscore_eq_iff {a b : String} :
    upperUnderscore a = upperUnderscore b ↔ SameWords a b := by
  have hinjective := Text.split_injective '_'
  unfold SameWords words
  rw [upperUnderscore_eq, upperUnderscore_eq, String.ofList_inj, ← Text.split_upper,
    ← Text.split_upper, hinjective.eq_iff]

/-! ## Camel case -/

/-- A character of a name in camel case, as its constant shows it. -/
def constantChar (c : Char) : List Char :=
  if c.isUpper then ['_', c] else [c.toUpper]

/-- The name in camel case that a constant is of. -/
def ofConstant : List Char → List Char
  | '_' :: c :: rest => c :: ofConstant rest
  | c :: rest => c.toLower :: ofConstant rest
  | [] => []

theorem isAlphanum_iff {c : Char} :
    c.isAlphanum = true ↔ c.isUpper = true ∨ isLowerOrDigit c = true := by
  show (c.isUpper || c.isLower || c.isDigit) = true ↔ _
  rw [Bool.or_assoc, Bool.or_eq_true]
  rfl

theorem toNat_lt_of_isAlphanum {c : Char} (h : c.isAlphanum = true) : c.toNat < 128 := by
  rw [isAlphanum_iff, isLowerOrDigit, Bool.or_eq_true, Text.isUpper_iff, Text.isLower_iff,
    Text.isDigit_iff] at h
  omega

theorem isLowerOrDigit_of_isAlphanum {c : Char} (h : c.isAlphanum = true) (hc : c.isUpper = false) :
    isLowerOrDigit c = true := by
  rcases isAlphanum_iff.1 h with h | h
  · rw [hc] at h
    cases h
  · exact h

theorem separate_of_single {a : Char} {cs : List Char} (h : ∀ c ∈ a :: cs, c.isAlphanum = true)
    (hsingle : (a :: cs).IsChain fun a b => ¬ (a.isUpper = true ∧ b.isUpper = true)) :
    separate (a :: cs) = a :: cs.flatMap fun c => if c.isUpper then ['_', c] else [c] := by
  induction cs generalizing a with
  | nil => rfl
  | cons b cs ih =>
    obtain ⟨hab, hrest⟩ := List.isChain_cons_cons.1 hsingle
    have hcs := ih (fun c hc => h c (List.mem_cons_of_mem a hc)) hrest
    rw [List.flatMap_cons, separate]
    by_cases hb : b.isUpper = true
    · have ha : a.isUpper = false := by
        rw [← Bool.not_eq_true]
        exact fun ha => hab ⟨ha, hb⟩
      have hstarts : startsWord a b cs.head? = true := by
        rw [startsWord, isLowerOrDigit_of_isAlphanum (h a List.mem_cons_self) ha, hb]
        rfl
      rw [if_pos hstarts, if_pos hb, hcs]
      rfl
    · have hstarts : ¬ startsWord a b cs.head? = true := by
        simp [startsWord, hb]
      rw [if_neg hstarts, if_neg hb, hcs]
      rfl

theorem upper_word {c : Char} (h : c.isAlphanum = true) :
    Text.upper (if c.isUpper then ['_', c] else [c]) = constantChar c := by
  have hc := toNat_lt_of_isAlphanum h
  have hupperChar : Text.upperChar c = [c.toUpper] := if_pos hc
  have hunderscore : Text.upperChar '_' = ['_'] := by decide
  unfold constantChar Text.upper
  by_cases hupper : c.isUpper = true
  · have hself : c.toUpper = c := by
      refine Text.forall_ascii (P := fun c => c.isUpper = true → c.toUpper = c) ?_ hc hupper
      decide
    rw [if_pos hupper, if_pos hupper]
    simp [hupperChar, hunderscore, hself]
  · rw [if_neg hupper, if_neg hupper]
    simp [hupperChar]

theorem upper_flatMap_word {cs : List Char} (h : ∀ c ∈ cs, c.isAlphanum = true) :
    Text.upper (cs.flatMap fun c => if c.isUpper then ['_', c] else [c]) =
      cs.flatMap constantChar := by
  unfold Text.upper
  rw [List.flatMap_assoc]
  exact List.flatMap_congr fun c hc => upper_word (h c hc)

/-- A name in camel case is read off its constant. -/
theorem ofConstant_flatMap {cs : List Char} (h : ∀ c ∈ cs, c.isAlphanum = true) :
    ofConstant (cs.flatMap constantChar) = cs := by
  induction cs with
  | nil => rfl
  | cons c cs ih =>
    have hcs := ih fun d hd => h d (List.mem_cons_of_mem c hd)
    rw [List.flatMap_cons, constantChar]
    by_cases hupper : c.isUpper = true
    · rw [if_pos hupper]
      show c :: ofConstant (cs.flatMap constantChar) = c :: cs
      rw [hcs]
    · have hsmall : c.toUpper ≠ '_' ∧ c.toUpper.toLower = c := by
        refine Text.forall_ascii (P := fun c => c.isAlphanum = true → ¬ c.isUpper = true →
          c.toUpper ≠ '_' ∧ c.toUpper.toLower = c) ?_ (toNat_lt_of_isAlphanum (h c List.mem_cons_self))
          (h c List.mem_cons_self) hupper
        decide
      have hcons : ofConstant (c.toUpper :: cs.flatMap constantChar) =
          c.toUpper.toLower :: ofConstant (cs.flatMap constantChar) := by
        rw [ofConstant]
        exact fun _ _ hunderscore _ => hsmall.1 hunderscore
      rw [if_neg hupper, List.singleton_append, hcons, hsmall.2, hcs]

theorem IsCamelCase.toList_upperUnderscore {name : String} (h : IsCamelCase name) :
    (upperUnderscore name).toList = name.toList.flatMap constantChar := by
  rw [upperUnderscore_eq, String.toList_ofList]
  cases hname : name.toList with
  | nil => rfl
  | cons a cs =>
    have halphanumeric := h.alphanumeric
    have hsingle := h.single
    have hfirst := h.first
    rw [hname] at halphanumeric hsingle hfirst
    have ha : a.isUpper = false := by
      have hlower : a.isLower = true := hfirst
      refine isUpper_eq_false_of_isLowerOrDigit ?_
      rw [isLowerOrDigit, hlower]
      rfl
    have hwords : a :: cs.flatMap (fun c => if c.isUpper then ['_', c] else [c]) =
        (a :: cs).flatMap fun c => if c.isUpper then ['_', c] else [c] := by
      rw [List.flatMap_cons, if_neg (by simp [ha])]
      rfl
    rw [separate_of_single halphanumeric hsingle, hwords, upper_flatMap_word halphanumeric]

/-- Names in camel case have constants of their own. -/
theorem upperUnderscore_inj {a b : String} (ha : IsCamelCase a) (hb : IsCamelCase b) :
    upperUnderscore a = upperUnderscore b ↔ a = b := by
  constructor
  · intro h
    have hconstant := congrArg (fun s : String => ofConstant s.toList) h
    simp only [ha.toList_upperUnderscore, hb.toList_upperUnderscore,
      ofConstant_flatMap ha.alphanumeric, ofConstant_flatMap hb.alphanumeric] at hconstant
    exact String.toList_inj.1 hconstant
  · intro h
    rw [h]

end Naming

/-- The constants of the stored properties are distinct, and none is that of a fixed member. -/
structure Entity.ConstantsApart (e : Entity) : Prop where
  fixed : ∀ p ∈ e.persistentProperties, ∀ name ∈ ["type", "instance"],
    ¬ Naming.SameWords p.name name
  properties : ∀ p ∈ e.persistentProperties, ∀ q ∈ e.persistentProperties,
    Naming.SameWords p.name q.name → p.name = q.name

/-- In camel case, only the names of the fixed members can be in the way. -/
theorem Entity.constantsApart_iff {e : Entity}
    (h : ∀ p ∈ e.persistentProperties, Naming.IsCamelCase p.name) :
    e.ConstantsApart ↔ ∀ p ∈ e.persistentProperties, p.name ≠ "type" ∧ p.name ≠ "instance" := by
  have hfixed : ∀ name ∈ ["type", "instance"], Naming.IsCamelCase name := by decide
  have hsame {p : Property} (hp : p ∈ e.persistentProperties) {name : String}
      (hname : Naming.IsCamelCase name) : Naming.SameWords p.name name ↔ p.name = name := by
    rw [← Naming.upperUnderscore_eq_iff]
    exact Naming.upperUnderscore_inj (h p hp) hname
  constructor
  · intro ha p hp
    constructor
    · intro hname
      exact ha.fixed p hp "type" (by simp) ((hsame hp (hfixed "type" (by simp))).2 hname)
    · intro hname
      exact ha.fixed p hp "instance" (by simp) ((hsame hp (hfixed "instance" (by simp))).2 hname)
  · intro hp
    refine ⟨?_, ?_⟩
    · intro p hmem name hname hwords
      have heq := (hsame hmem (hfixed name hname)).1 hwords
      rw [List.mem_pair] at hname
      rcases hname with rfl | rfl
      · exact (hp p hmem).1 heq
      · exact (hp p hmem).2 heq
    · intro p hmem q hq hwords
      exact (hsame hmem (h q hq)).1 hwords

end Metamodel
