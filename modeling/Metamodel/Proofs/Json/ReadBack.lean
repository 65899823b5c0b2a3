import Metamodel.Proofs.Json.Canonical

/-!
# What a text tells of a value

A number that is not finite is written as null, so that a text tells a value only as it is read back
(`readBack`). Values whose canonical texts are the same agree as they are read back
(`agrees_of_stableText`), and then their members do, name by name (`agrees_member`).
-/

namespace Metamodel.Json

open Decimal

/-- The members of each object have names of their own, none of which is that of the prototype. -/
inductive IsNamed : Json → Prop where
  | null : IsNamed .null
  | bool (b : Bool) : IsNamed (.bool b)
  | number (x : Binary64) : IsNamed (.number x)
  | string (s : String) : IsNamed (.string s)
  | array {xs : List Json} (items : ∀ x ∈ xs, IsNamed x) : IsNamed (.array xs)
  | object {ms : List (String × Json)} (names : (ms.map Prod.fst).Nodup)
      (prototype : prototypeName ∉ ms.map Prod.fst) (members : ∀ m ∈ ms, IsNamed m.2) :
      IsNamed (.object ms)

mutual

/-- The value as it is read back from its text. -/
def readBack : Json → Json
  | .number (.finite s m) => .number (.finite s m)
  | .number _ => .null
  | .array xs => .array (readBackItems xs)
  | .object ms => .object (readBackMembers ms)
  | v => v

/-- Items as they are read back. -/
def readBackItems : List Json → List Json
  | [] => []
  | x :: xs => readBack x :: readBackItems xs

/-- Members as they are read back. -/
def readBackMembers : List (String × Json) → List (String × Json)
  | [] => []
  | (k, v) :: ms => (k, readBack v) :: readBackMembers ms

end

theorem readBackItems_eq (xs : List Json) : readBackItems xs = xs.map readBack := by
  induction xs with
  | nil => rfl
  | cons x xs ih => rw [readBackItems, ih, List.map_cons]

theorem readBackMembers_eq (ms : List (String × Json)) :
    readBackMembers ms = ms.map (Prod.map id readBack) := by
  induction ms with
  | nil => rfl
  | cons m ms ih =>
    rw [readBackMembers, ih]
    rfl

theorem map_fst_map_snd (f : Json → Json) (ms : List (String × Json)) :
    (ms.map (Prod.map id f)).map Prod.fst = ms.map Prod.fst := by
  rw [List.map_map]
  rfl

/-- What is read back is a value that a document can hold. -/
theorem IsNamed.isValue_readBack {v : Json} (h : IsNamed v) : IsValue (readBack v) := by
  induction h with
  | null => exact .null
  | bool b => exact .bool b
  | number x =>
    cases x with
    | finite s m => exact .number s m
    | nan => exact .null
    | infinite s => exact .null
  | string s => exact .string s
  | array items ih =>
    rw [readBack, readBackItems_eq]
    exact .array (List.forall_mem_map.2 ih)
  | object names prototype members ih =>
    rw [readBack, readBackMembers_eq]
    refine .object ?_ ?_ (List.forall_mem_map.2 ih)
    · rwa [map_fst_map_snd]
    · rwa [map_fst_map_snd]

/-- Lists with the same parts are enclosed alike. -/
theorem enclose_map {α β : Type} {gap depth : Nat} {opening closing : Char}
    {part : α → List Char} {f g : β → α} {as : List β} (h : ∀ a ∈ as, part (f a) = part (g a)) :
    enclose gap depth opening closing part (as.map f) =
      enclose gap depth opening closing part (as.map g) := by
  refine enclose_congr (r := fun a b => part a = part b) ?_ fun _ _ _ => id
  exact List.forall₂_map_left_iff.2 (List.forall₂_map_right_iff.2 (List.forall₂_same.2 h))

/-- The canonical text of a value is that of what is read back. -/
theorem IsNamed.print_canonical_readBack {v : Json} (h : IsNamed v) (gap depth : Nat) :
    print gap depth (canonical (readBack v)) = print gap depth (canonical v) := by
  induction h generalizing depth with
  | null => rfl
  | bool b => rfl
  | number x => cases x <;> rfl
  | string s => rfl
  | @array xs items ih =>
    rw [readBack, readBackItems_eq, canonical, canonical, canonicalItems_eq, canonicalItems_eq,
      List.map_map, print_array, print_array]
    exact enclose_map fun x hx => ih x hx (depth + 1)
  | @object ms names prototype members ih =>
    have prototype' : prototypeName ∉ (ms.map (Prod.map id readBack)).map Prod.fst := by
      rwa [map_fst_map_snd]
    rw [readBack, readBackMembers_eq, canonical_object prototype', canonical_object prototype,
      arranged_map, List.map_map, print_object, print_object]
    refine enclose_map fun m hm => ?_
    have hmember := ih m ((arranged_perm ms).mem_iff.1 hm) (depth + 1)
    exact congrArg (printString m.1 ++ nameMark gap ++ ·) hmember

/-- Values of one canonical text agree as they are read back. -/
theorem agrees_of_stableText {v w : Json} (hv : IsNamed v) (hw : IsNamed w) {gap : Nat}
    (h : stableText v gap = stableText w gap) : Agrees (readBack v) (readBack w) := by
  have hend : EndsNumber ['\n'] := by
    simp [EndsNumber]
    decide
  have htext := congrArg String.toList h
  simp only [stableText, String.toList_ofList] at htext
  rw [← hv.print_canonical_readBack, ← hw.print_canonical_readBack] at htext
  have hvalue := hv.isValue_readBack
  have hvalue' := hw.isValue_readBack
  exact agrees_of_canonical hvalue hvalue' ((isValue_canonical hvalue).tells gap 0
    (isValue_canonical hvalue') hend hend htext).1

/-- Objects that agree have agreeing members under each name. -/
theorem agrees_member {ms ns : List (String × Json)} (h : Agrees (.object ms) (.object ns))
    (hnames : (ns.map Prod.fst).Nodup) {name : String} {v w : Json} (hv : (name, v) ∈ ms)
    (hw : (name, w) ∈ ns) : Agrees v w := by
  cases h with
  | object hleft hright hkeys hvalues =>
    obtain ⟨zs, rfl, rfl, hzs⟩ := exists_paired hkeys hvalues
    obtain ⟨z, hz, hzv⟩ := List.mem_map.1 (hleft.mem_iff.1 hv)
    obtain ⟨rfl, rfl⟩ := Prod.mk.inj hzv
    have hother : (z.1, z.2.2) ∈ ns := hright.mem_iff.2 (List.mem_map_of_mem hz)
    have hsame := List.inj_on_of_nodup_map hnames hother hw rfl
    rw [← (Prod.mk.inj hsame).2]
    exact hzs z hz

/-- Objects that agree as they are read back have members that do, under each name. -/
theorem IsNamed.agrees_member {ms ns : List (String × Json)} (hns : IsNamed (.object ns))
    (h : Agrees (readBack (.object ms)) (readBack (.object ns))) {name : String} {v w : Json}
    (hv : (name, v) ∈ ms) (hw : (name, w) ∈ ns) : Agrees (readBack v) (readBack w) := by
  have hmem {v : Json} {ms : List (String × Json)} (hv : (name, v) ∈ ms) :
      (name, readBack v) ∈ readBackMembers ms := by
    rw [readBackMembers_eq]
    exact List.mem_map_of_mem (f := Prod.map id readBack) hv
  cases hns with
  | object names _ _ =>
    refine Json.agrees_member h ?_ (hmem hv) (hmem hw)
    rwa [readBackMembers_eq, map_fst_map_snd]

end Metamodel.Json
