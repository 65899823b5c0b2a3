import Metamodel.Proofs.Declaration.Form

/-!
# Reading declaration sets

What is read from the JSON form of a record is the record (`Declaration.WrittenAs.ofJson_eq` and its
like), member by member, for type references by induction on the size of the value. Together with
the acceptance lemmas this says what the reader of declaration sets does with every value
(`parseDeclarationSet_eq_ok_iff`).
-/

namespace Metamodel

/-! ## Parts of records -/

namespace Json

variable {α : Type} {v : Json} {name : String}

theorem text_of_get? {s : String} (h : v.get? name = some (.string s)) : v.text name = s := by
  rw [text, text?, field?, h]
  rfl

theorem field?_of_rel {item : α → Json → Prop} {read : Json → Option α} {a : Option α}
    (h : Option.Rel item a (v.get? name)) (hread : ∀ a w, item a w → read w = some a) :
    v.field? name read = a := by
  unfold field?
  generalize v.get? name = o at h
  cases h with
  | none => rfl
  | some h => exact hread _ _ h

theorem field?_of_map {atom : α → Json} {read : Json → Option α} {a : Option α}
    (h : v.get? name = a.map atom) (hread : ∀ a, read (atom a) = some a) :
    v.field? name read = a := by
  rw [field?, h]
  cases a with
  | none => rfl
  | some a => exact hread a

theorem field?_of_count {minimum : Nat} {n : Option Nat}
    (h : CountWrittenAs minimum n (v.get? name)) : v.field? name asNat? = n := by
  unfold field?
  generalize v.get? name = o at h
  cases h with
  | absent => rfl
  | whole hvalue _ => simp [asNat?, asNumber?, hvalue]
  | infinite => rfl

theorem field?_of_name {s : Option String} (h : NameWrittenAs s (v.get? name)) :
    v.field? name asString? = s := by
  unfold field?
  generalize v.get? name = o at h
  cases h <;> rfl

theorem map_eq_of_forall₂ {β : Type} {item : α → β → Prop} {read : β → α} {as : List α}
    {xs : List β} (h : List.Forall₂ item as xs) (hread : ∀ x ∈ xs, ∀ a, item a x → read x = a) :
    xs.map read = as := by
  induction h with
  | nil => rfl
  | cons hx _ ih =>
    obtain ⟨hread, hrest⟩ := List.forall_mem_cons.1 hread
    rw [List.map_cons, hread _ hx, ih hrest]

theorem listOf?_of_writtenAs {item : α → Json → Prop} {read : Json → α} {as : List α} {w : Json}
    (h : ListWrittenAs item as w) (hread : ∀ a x, item a x → read x = a) :
    listOf? read w = some as := by
  obtain ⟨xs, rfl, hitems⟩ := h
  exact congrArg some (map_eq_of_forall₂ hitems fun x _ a => hread a x)

theorem field?_some_of_rel {item : α → Json → Prop} {read : Json → α} {a : Option α}
    (h : Option.Rel item a (v.get? name)) (hread : ∀ a w, item a w → read w = a) :
    v.field? name (some ∘ read) = a :=
  field?_of_rel h fun a w hw => congrArg some (hread a w hw)

theorem field?_listOf?_of_rel {item : α → Json → Prop} {read : Json → α} {as : Option (List α)}
    (h : Option.Rel (ListWrittenAs item) as (v.get? name)) (hread : ∀ a x, item a x → read x = a) :
    v.field? name (listOf? read) = as :=
  field?_of_rel h fun _ _ hw => listOf?_of_writtenAs hw hread

theorem textsOf?_strings {text : α → String} {ofText? : String → Option α}
    (h : ∀ a, ofText? (text a) = some a) (as : List α) :
    textsOf? ofText? (.strings (as.map text)) = some as := by
  simp [textsOf?, strings, asArray?, List.filterMap_map, Function.comp_def, asString?, h]

end Json

/-! ## Enumerations -/

theorem TypeKind.ofText?_text (k : TypeKind) : ofText? k.text = some k := by
  cases k <;> rfl

theorem ContainerShape.ofText?_text (s : ContainerShape) : ofText? s.text = some s := by
  cases s <;> rfl

theorem MemberKind.ofText?_text (k : MemberKind) : ofText? k.text = some k := by
  cases k <;> rfl

theorem MemberModifier.ofText?_text (m : MemberModifier) : ofText? m.text = some m := by
  cases m <;> rfl

theorem DeclarationKind.ofText?_text (k : DeclarationKind) : ofText? k.text = some k := by
  cases k <;> rfl

theorem TypeModifier.ofText?_text (m : TypeModifier) : ofText? m.text = some m := by
  cases m <;> rfl

/-! ## Records -/

theorem Location.WrittenAs.ofJson_eq {l : Location} {v : Json} (h : l.WrittenAs v) :
    ofJson v = l := by
  rw [ofJson, Json.text_of_get? h.file, Json.field?_of_count h.line, Json.field?_of_count h.column]

namespace TypeRef

theorem ofJsonList_eq (xs : List Json) : ofJsonList xs = xs.map ofJson := by
  induction xs with
  | nil => rfl
  | cons x xs ih => rw [ofJsonList, ih, List.map_cons]

theorem argsOfMembers_eq (ms : List (String × Json)) :
    argsOfMembers ms = (ms.lookup "typeArgs").bind argsOfValue := by
  induction ms with
  | nil => rfl
  | cons m ms ih =>
    rw [argsOfMembers, ih, List.lookup_cons]
    by_cases h : m.1 = "typeArgs"
    · simp [h]
    · have hname : ("typeArgs" == m.1) = false := beq_false_of_ne (Ne.symm h)
      simp [h, hname]

theorem HeadWrittenAs.ofMembers_eq {t : TypeRef} {v : Json} (h : t.HeadWrittenAs v) :
    ofMembers v.get? t.typeArgs = t := by
  have hcontainer : ((v.get? "container").bind Json.asString?).bind ContainerShape.ofText? =
      t.container := by
    rw [h.container]
    cases t.container with
    | none => rfl
    | some s => exact ContainerShape.ofText?_text s
  have hfile : (v.get? "file").bind Json.asString? = t.file :=
    Json.field?_of_map h.file fun _ => rfl
  have hnullable : (v.get? "nullable").bind Json.asBool? = t.nullable :=
    Json.field?_of_map h.nullable fun _ => rfl
  have hkind : ((some (Json.string t.kind.text)).bind Json.asString?).bind TypeKind.ofText? =
      some t.kind := TypeKind.ofText?_text t.kind
  rw [ofMembers, h.kind, h.name, hcontainer, hfile, hnullable, hkind]
  cases t
  rfl

theorem WrittenAs.ofJson_eq {t : TypeRef} {v : Json} (h : t.WrittenAs v) : ofJson v = t := by
  obtain ⟨head, hargs⟩ := Declaration.writtenAs_typeRef_iff.1 h
  have hitems (xs : List Json) (hxs : v.get? "typeArgs" = some (.array xs))
      (x : Json) (hx : x ∈ xs) (u : TypeRef) (hu : u.WrittenAs x) : ofJson x = u := by
    have hsize := Declaration.sizeOf_of_mem_get? hxs hx
    exact hu.ofJson_eq
  obtain ⟨ms, rfl, -⟩ := head.members
  have hread : argsOfMembers ms = t.typeArgs := by
    rw [argsOfMembers_eq]
    change ((Json.object ms).get? "typeArgs").bind argsOfValue = _
    generalize (Json.object ms).get? "typeArgs" = o, t.typeArgs = ts at hargs hitems
    cases hargs with
    | none => rfl
    | some h =>
      obtain ⟨xs, rfl, hxs⟩ := h
      rw [Option.bind_some, argsOfValue, ofJsonList_eq,
        Json.map_eq_of_forall₂ hxs fun x hx u hu => hitems xs rfl x hx u hu]
  rw [ofJson, hread]
  exact head.ofMembers_eq
  termination_by sizeOf v
  decreasing_by exact hsize

end TypeRef

theorem AnnotationValue.WrittenAs.ofJson_eq {a : AnnotationValue} {v : Json} (h : a.WrittenAs v) :
    ofJson v = a := by
  cases h with
  | string h => simp [ofJson, Json.text_of_get? h.kind, h.value, Json.asString?]
  | number h => simp [ofJson, Json.text_of_get? h.kind, h.value, Json.asNumber?]
  | boolean h => simp [ofJson, Json.text_of_get? h.kind, h.value, Json.asBool?]
  | @strings _ xs h =>
    have htexts : Json.textsOf? some (.strings (xs.map id)) = some xs :=
      Json.textsOf?_strings (fun _ => rfl) xs
    rw [List.map_id] at htexts
    simp [ofJson, Json.text_of_get? h.kind, h.value, htexts]
  | type h ref => simp [ofJson, Json.text_of_get? h.kind, h.value, ref.ofJson_eq]

theorem Annotation.WrittenAs.ofJson_eq {a : Annotation} {v : Json} (h : a.WrittenAs v) :
    ofJson v = a := by
  have hvalues : (v.field? "values" Json.asMembers?).map
      (·.map fun m => (m.1, AnnotationValue.ofJson m.2)) = a.values := by
    rw [Json.field?, Option.map_bind]
    refine Json.field?_of_rel h.values ?_
    rintro vs _ ⟨ms, rfl, hvalues⟩
    refine congrArg some (Json.map_eq_of_forall₂ hvalues fun m _ u hu => ?_)
    rw [hu.2.ofJson_eq, ← hu.1]
  rw [ofJson, Json.text_of_get? h.name, hvalues]

theorem Member.WrittenAs.ofJson_eq {m : Member} {v : Json} (h : m.WrittenAs v) :
    ofJson v = m := by
  rw [ofJson, Json.text_of_get? h.name, Json.text_of_get? h.kind, MemberKind.ofText?_text,
    Json.field?_of_count h.parameterCount,
    Json.field?_some_of_rel h.type fun _ _ => TypeRef.WrittenAs.ofJson_eq,
    Json.field?_of_map h.modifiers (Json.textsOf?_strings MemberModifier.ofText?_text),
    Json.field?_listOf?_of_rel h.annotations fun _ _ => Annotation.WrittenAs.ofJson_eq,
    Json.field?_some_of_rel h.source fun _ _ => Location.WrittenAs.ofJson_eq]
  rfl

theorem Declaration.WrittenAs.ofJson_eq {d : Declaration} {v : Json} (h : d.WrittenAs v) :
    ofJson v = d := by
  rw [ofJson, Json.text_of_get? h.packageName, Json.text_of_get? h.simpleName,
    Json.field?_of_name h.qualifiedName, Json.text_of_get? h.kind, DeclarationKind.ofText?_text,
    Json.field?_of_map h.modifiers (Json.textsOf?_strings TypeModifier.ofText?_text),
    Json.field?_listOf?_of_rel h.annotations fun _ _ => Annotation.WrittenAs.ofJson_eq,
    Json.field?_listOf?_of_rel h.superTypes fun _ _ => TypeRef.WrittenAs.ofJson_eq,
    Json.field?_listOf?_of_rel h.ownMembers fun _ _ => Member.WrittenAs.ofJson_eq,
    Json.field?_some_of_rel h.source fun _ _ => Location.WrittenAs.ofJson_eq]
  rfl

end Metamodel
