import Metamodel.Proofs.Json.Printing
import Metamodel.Proofs.Text.Collation
import Metamodel.Proofs.Text.Units

/-!
# Canonical texts

How the members of a canonical form stand depends on their names alone (`arranged_map`,
`arranged_eq_of_perm`). So values that agree up to the order of members have canonical forms that
are alike, and conversely; with the lemmas on printed values the canonical texts of two values are
the same exactly when the values agree (`stableText_eq_iff`).
-/

namespace Metamodel.Json

/-! ## Order of members -/

section Members

variable {α β : Type}

/-- The members whose names are array indexes. -/
theorem map_snd_indexed (ms : List (String × α)) :
    (ms.filterMap fun m => (arrayIndex? m.1).map (·, m)).map Prod.snd =
      ms.filter fun m => !(arrayIndex? m.1).isNone := by
  induction ms with
  | nil => rfl
  | cons m ms ih =>
    cases h : arrayIndex? m.1 with
    | none => simp [h, ih]
    | some i => simp [h, ih]

theorem visitingOrder_perm (ms : List (String × α)) : (visitingOrder ms).Perm ms := by
  have hsplit := List.filter_append_perm (fun m : String × α => !(arrayIndex? m.1).isNone) ms
  simp only [Bool.not_not] at hsplit
  unfold visitingOrder
  refine ((List.mergeSort_perm _ _).map Prod.snd).append_right _ |>.trans ?_
  rw [map_snd_indexed]
  exact hsplit

theorem sortMembers_perm (ms : List (String × α)) : (sortMembers ms).Perm ms :=
  List.mergeSort_perm _ _

/-- The members in the order in which a canonical form has them. -/
def arranged (ms : List (String × α)) : List (String × α) :=
  visitingOrder (sortMembers ms)

theorem arranged_perm (ms : List (String × α)) : (arranged ms).Perm ms :=
  (visitingOrder_perm _).trans (sortMembers_perm ms)

/-- Members of distinct names are arranged alike in whatever order they come. -/
theorem arranged_eq_of_perm {ms ns : List (String × α)} (h : ms.Perm ns)
    (hnames : (ms.map Prod.fst).Nodup) : arranged ms = arranged ns := by
  have hsorted : sortMembers ms = sortMembers ns :=
    Text.mergeSort_perm_eq (Text.transCmp_on Prod.fst) h fun a ha b hb hab =>
      List.inj_on_of_nodup_map hnames ha hb (Text.eq_of_compareUnits_eq hab)
  unfold arranged
  rw [hsorted]

theorem visitingOrder_map (f : α → β) (ms : List (String × α)) :
    visitingOrder (ms.map (Prod.map id f)) = (visitingOrder ms).map (Prod.map id f) := by
  have hindexed : ((ms.map (Prod.map id f)).filterMap fun m => (arrayIndex? m.1).map (·, m)) =
      (ms.filterMap fun m => (arrayIndex? m.1).map (·, m)).map (Prod.map id (Prod.map id f)) := by
    rw [List.filterMap_map, List.map_filterMap]
    congr 1
    funext m
    show (arrayIndex? m.1).map _ = ((arrayIndex? m.1).map _).map _
    rw [Option.map_map]
    rfl
  have hsorted (xs : List (Nat × String × α)) :
      (xs.map (Prod.map id (Prod.map id f))).mergeSort (fun a b => a.1 ≤ b.1) =
        (xs.mergeSort fun a b => a.1 ≤ b.1).map (Prod.map id (Prod.map id f)) := by
    rw [List.map_mergeSort]
    exact fun _ _ _ _ => rfl
  unfold visitingOrder
  simp only [hindexed, hsorted, List.map_append, List.filter_map, List.map_map]
  rfl

/-- Names alone decide how members are arranged. -/
theorem arranged_map (f : α → β) (ms : List (String × α)) :
    arranged (ms.map (Prod.map id f)) = (arranged ms).map (Prod.map id f) := by
  have hsorted : sortMembers (ms.map (Prod.map id f)) = (sortMembers ms).map (Prod.map id f) := by
    unfold sortMembers
    rw [List.map_mergeSort]
    exact fun _ _ _ _ => rfl
  unfold arranged
  rw [hsorted, visitingOrder_map]

end Members

/-! ## Canonical forms -/

theorem canonicalItems_eq (xs : List Json) : canonicalItems xs = xs.map canonical := by
  induction xs with
  | nil => rfl
  | cons x xs ih => rw [canonicalItems, ih, List.map_cons]

theorem canonicalMembers_eq {ms : List (String × Json)} (h : prototypeName ∉ ms.map Prod.fst) :
    canonicalMembers ms = ms.map (Prod.map id canonical) := by
  induction ms with
  | nil => rfl
  | cons m ms ih =>
    obtain ⟨hm, hms⟩ := not_or.1 (mt List.mem_cons.2 h)
    have hname : ¬ (m.1 == prototypeName) = true := fun heq => hm (eq_of_beq heq).symm
    rw [canonicalMembers, if_neg hname, ih hms]
    rfl

/-- The members of an object are arranged, and their values made canonical. -/
theorem canonical_object {ms : List (String × Json)} (h : prototypeName ∉ ms.map Prod.fst) :
    canonical (.object ms) = .object ((arranged ms).map (Prod.map id canonical)) := by
  rw [canonical, canonicalMembers_eq h]
  exact congrArg Json.object (arranged_map canonical ms)

theorem isValue_canonical {v : Json} (hv : IsValue v) : IsValue (canonical v) := by
  induction hv with
  | null => exact .null
  | bool b => exact .bool b
  | number s m => exact .number s m
  | string s => exact .string s
  | array items ih =>
    rw [canonical, canonicalItems_eq]
    exact .array (List.forall_mem_map.2 ih)
  | @object ms names prototype members ih =>
    have hperm := arranged_perm ms
    have hnames : ((arranged ms).map (Prod.map id canonical)).map Prod.fst =
        (arranged ms).map Prod.fst := by
      rw [List.map_map]
      rfl
    rw [canonical_object prototype]
    refine .object ?_ ?_ ?_
    · rw [hnames]
      exact (hperm.map Prod.fst).nodup_iff.2 names
    · rw [hnames, (hperm.map Prod.fst).mem_iff]
      exact prototype
    · exact List.forall_mem_map.2 fun m hm => ih m (hperm.mem_iff.1 hm)

/-- The values are the same up to the order of members. -/
abbrev Agrees : Json → Json → Prop :=
  AgreesUpTo List.Perm

/-- Members of the same names, each with two values. -/
theorem exists_paired {R : Json → Json → Prop} {ms ns : List (String × Json)}
    (hnames : ms.map Prod.fst = ns.map Prod.fst)
    (hvalues : List.Forall₂ R (ms.map Prod.snd) (ns.map Prod.snd)) :
    ∃ zs : List (String × Json × Json), zs.map (Prod.map id Prod.fst) = ms ∧
      zs.map (Prod.map id Prod.snd) = ns ∧ ∀ z ∈ zs, R z.2.1 z.2.2 := by
  induction ms generalizing ns with
  | nil =>
    rw [List.map_nil, eq_comm, List.map_eq_nil_iff] at hnames
    exact ⟨[], rfl, hnames.symm, nofun⟩
  | cons m ms ih =>
    cases ns with
    | nil => cases hnames
    | cons n ns =>
      obtain ⟨hname, hnames⟩ := List.cons_eq_cons.1 hnames
      obtain ⟨hvalue, hvalues⟩ := List.forall₂_cons.1 hvalues
      obtain ⟨zs, rfl, rfl, hzs⟩ := ih hnames hvalues
      refine ⟨(m.1, m.2, n.2) :: zs, rfl, ?_, List.forall_mem_cons.2 ⟨hvalue, hzs⟩⟩
      exact List.cons_eq_cons.2 ⟨Prod.ext hname rfl, rfl⟩

theorem forall₂_imp_of_mem {R S : Json → Json → Prop} {xs ys : List Json}
    (h : List.Forall₂ R xs ys) (hRS : ∀ x ∈ xs, ∀ y ∈ ys, R x y → S x y) :
    List.Forall₂ S xs ys := by
  induction h with
  | nil => exact .nil
  | cons hxy _ ih =>
    refine .cons (hRS _ List.mem_cons_self _ List.mem_cons_self hxy) (ih fun x hx y hy => ?_)
    exact hRS x (List.mem_cons_of_mem _ hx) y (List.mem_cons_of_mem _ hy)

/-- Values that agree up to the order of members have canonical forms that are alike. -/
theorem alike_canonical {v w : Json} (hv : IsValue v) (hw : IsValue w) (h : Agrees v w) :
    Alike (canonical v) (canonical w) := by
  induction hv generalizing w with
  | null =>
    cases h
    exact .null
  | bool b =>
    cases h
    exact .bool b
  | number s m =>
    cases h with
    | number h => exact .number h
  | string s =>
    cases h
    exact .string s
  | array items ih =>
    cases h with
    | array hitems =>
      cases hw with
      | array hys =>
        rw [canonical, canonical, canonicalItems_eq, canonicalItems_eq]
        refine .array (List.forall₂_map_left_iff.2 (List.forall₂_map_right_iff.2 ?_))
        exact forall₂_imp_of_mem hitems fun x hx y hy hxy => ih x hx (hys y hy) hxy
  | @object ms names prototype members ih =>
    cases h with
    | object hleft hright hnames hvalues =>
      cases hw with
      | object names' prototype' members' =>
        -- both objects are arranged like the list of their paired members
        obtain ⟨zs, rfl, rfl, hzs⟩ := exists_paired hnames hvalues
        rw [canonical_object prototype, canonical_object prototype',
          arranged_eq_of_perm hleft names, arranged_eq_of_perm hright names', arranged_map,
          arranged_map]
        simp only [List.map_map]
        refine .object rfl rfl ?_ ?_
        · simp only [List.map_map]
          rfl
        · simp only [List.map_map]
          refine List.forall₂_map_left_iff.2 (List.forall₂_map_right_iff.2 ?_)
          refine List.forall₂_same.2 fun z hz => ?_
          have hz' : z ∈ zs := (arranged_perm zs).mem_iff.1 hz
          have hm := hleft.mem_iff.2 (List.mem_map_of_mem hz')
          have hn := hright.mem_iff.2 (List.mem_map_of_mem hz')
          exact ih _ hm (members' _ hn) (hzs z hz')

/-- Values whose canonical forms are alike agree up to the order of members. -/
theorem agrees_of_canonical {v w : Json} (hv : IsValue v) (hw : IsValue w)
    (h : Alike (canonical v) (canonical w)) : Agrees v w := by
  induction hv generalizing w with
  | null =>
    cases hw <;> cases h
    exact .null
  | bool b =>
    cases hw <;> cases h
    exact .bool b
  | number s m =>
    cases hw <;> cases h
    rename_i h
    exact .number h
  | string s =>
    cases hw <;> cases h
    exact .string s
  | array items ih =>
    cases hw with
    | array items' =>
      rw [canonical, canonical, canonicalItems_eq, canonicalItems_eq] at h
      cases h with
      | array hitems =>
        have hitems := List.forall₂_map_right_iff.1 (List.forall₂_map_left_iff.1 hitems)
        exact .array (forall₂_imp_of_mem hitems fun x hx y hy hxy => ih x hx (items' y hy) hxy)
    | _ =>
      simp only [canonical] at h
      cases h
  | @object ms names prototype members ih =>
    cases hw with
    | @object ns names' prototype' members' =>
      rw [canonical_object prototype, canonical_object prototype'] at h
      cases h with
      | object hleft hright hnames hvalues =>
        subst hleft hright
        simp only [List.map_map] at hnames hvalues
        refine .object (arranged_perm ms).symm (arranged_perm ns).symm hnames ?_
        have hvalues : List.Forall₂ Alike (((arranged ms).map Prod.snd).map canonical)
            (((arranged ns).map Prod.snd).map canonical) := by
          rw [List.map_map, List.map_map]
          exact hvalues
        have hvalues := List.forall₂_map_right_iff.1 (List.forall₂_map_left_iff.1 hvalues)
        refine forall₂_imp_of_mem hvalues fun x hx y hy hxy => ?_
        obtain ⟨m, hm, rfl⟩ := List.mem_map.1 hx
        obtain ⟨n, hn, rfl⟩ := List.mem_map.1 hy
        exact ih m ((arranged_perm ms).mem_iff.1 hm)
          (members' n ((arranged_perm ns).mem_iff.1 hn)) hxy
    | _ =>
      simp only [canonical] at h
      cases h

/-- The canonical texts of two values are the same exactly when the values agree up to the order of
members. -/
theorem stableText_eq_iff {v w : Json} (hv : IsValue v) (hw : IsValue w) (gap : Nat) :
    stableText v gap = stableText w gap ↔ Agrees v w := by
  have hvc := isValue_canonical hv
  have hend : EndsNumber ['\n'] := by
    simp [EndsNumber]
    decide
  constructor
  · intro h
    have htext := congrArg String.toList h
    simp only [stableText, String.toList_ofList] at htext
    exact agrees_of_canonical hv hw (hvc.tells gap 0 (isValue_canonical hw) hend hend htext).1
  · intro h
    unfold stableText
    rw [print_congr hvc (alike_canonical hv hw h)]

/-- An array with a zero of either sign. -/
def zeroArray (negative : Bool) : Json :=
  .array [.number (.finite negative .zero), .null]

/-- An object of an array with a negative zero and an empty object. -/
def sampleObject : Json :=
  .object [("b", zeroArray true), ("7", .object [])]

/-- The members of the sample in the order in which they are visited, with a zero without sign. -/
def sampleVisited : Json :=
  .object [("7", .object []), ("b", zeroArray false)]

theorem isValue_zeroArray (negative : Bool) : IsValue (zeroArray negative) :=
  .array (by simpa using ⟨.number negative .zero, .null⟩)

theorem isValue_empty : IsValue (.object []) :=
  .object .nil List.not_mem_nil nofun

theorem isValue_sampleObject : IsValue sampleObject :=
  .object (by decide) (by decide) (by simpa using ⟨isValue_zeroArray true, isValue_empty⟩)

theorem isValue_sampleVisited : IsValue sampleVisited :=
  .object (by decide) (by decide) (by simpa using ⟨isValue_empty, isValue_zeroArray false⟩)

/-- Neither the order of the members nor the sign of a zero shows. -/
theorem stableText_sampleObject : stableText sampleObject 2 = stableText sampleVisited 2 := by
  have hzero : Agrees (zeroArray true) (zeroArray false) :=
    .array (.cons (.number rfl) (.cons .null .nil))
  have hempty : Agrees (.object []) (.object []) := .object .nil .nil rfl .nil
  refine (stableText_eq_iff isValue_sampleObject isValue_sampleVisited 2).2 ?_
  exact .object (.swap _ _ _) (.refl _) rfl (.cons hempty (.cons hzero .nil))

end Metamodel.Json
