import Mathlib.Data.List.Forall2
import Metamodel.Proofs.Keyed
import Metamodel.Source.Reading.Member

/-!
# Members that are read

What can be read of a class are its entries: fields, fields that parameters declare, getters and
methods (`entriesOf`). A record is kept of each, but of the signatures of one method only of the first
(`OneEach`, `ReadingContext.Reads`).

Reading tells methods, and the setter of a getter, by their names alone
(`ReadingContext.reads_members`). But static members are a space of names of their own: where a static
method and another have one name, the second of them is lost, and a getter with a setter in the other
space only is not marked as readonly (`SpacesApart`).
-/

namespace Metamodel.Source

/-! ## Entries -/

/-- What can be read of a class. -/
inductive Entry where
  | field (head : Head) (name : MemberName) (text : String) (optional : Bool)
      (type : Option TypeExpr) (value : Option Expression)
  | getter (member : NamedMember) (text : String) (result : Option TypeExpr) (body : Body)
  | method (member : NamedMember) (text : String) (typeParameters : List TypeParameter)
      (parameters : List Parameter) (result : Option TypeExpr) (body : Body)

def Entry.head : Entry → Head
  | .field head .. => head
  | .getter m .. => m.head
  | .method m .. => m.head

/-- The name under which an entry is read. -/
def Entry.text : Entry → String
  | .field _ _ text .. => text
  | .getter _ text .. => text
  | .method _ text .. => text

def Entry.kind : Entry → MemberKind
  | .field .. => .field
  | .getter .. => .accessor
  | .method .. => .method

/-- What a member with a name of its own is; setters are not read. -/
def NamedMember.entry? (m : NamedMember) (text : String) : Option Entry :=
  match m.form with
  | .field type value => some (.field m.head m.name text m.optional type value)
  | .getter result body => some (.getter m text result body)
  | .method ps parameters result body => some (.method m text ps parameters result body)
  | .setter _ => none

/-- The field that a parameter declares. -/
def Parameter.entry? (p : Parameter) : Option Entry :=
  if p.declaresField then
    p.name.text?.map fun text => .field p.head p.name text p.optional p.type p.value
  else none

/-- What can be read of a member; computed names are none. -/
def ClassMember.entries : ClassMember → List Entry
  | .unnamed => []
  | .creation ps => ps.filterMap Parameter.entry?
  | .named m => (m.name.text?.bind m.entry?).toList

/-- What can be read of a class, in the order in which it is written. -/
def entriesOf (ms : List ClassMember) : List Entry :=
  ms.flatMap ClassMember.entries

/-- What tells an entry from the others of its class. -/
inductive Identity (κ : Type) where
  /-- methods of one key are one method, with several signatures -/
  | method (key : κ)
  /-- anything else is told by its place -/
  | place (index : Nat)
  deriving DecidableEq

section Reading

variable {κ : Type} [DecidableEq κ] (key : NamedMember → String → κ)

/-- The key of a method. -/
def Entry.methodKey? : Entry → Option κ
  | .method m text .. => some (key m text)
  | _ => none

/-- What tells the entry of a place from the others. -/
def Entry.identity (e : Entry × Nat) : Identity κ :=
  match e.1.methodKey? key with
  | some k => .method k
  | none => .place e.2

/-- The entries of a class, of each identity the first. -/
def readOnce (ms : List ClassMember) : List Entry :=
  (firstBy (Entry.identity key) (entriesOf ms).zipIdx).map (·.1)

end Reading

/-- The entries that are kept stand in order, each that is no method is there once, and of the methods
of one key the first. -/
structure OneEach {κ : Type} [DecidableEq κ] (key : NamedMember → String → κ) (es kept : List Entry) :
    Prop where
  order : kept.Sublist es
  others : kept.filter (fun e => (e.methodKey? key).isNone) =
    es.filter fun e => (e.methodKey? key).isNone
  methods : kept.filterMap (Entry.methodKey? key) = (es.filterMap (Entry.methodKey? key)).eraseDups
  first : ∀ k, kept.find? (·.methodKey? key == some k) = es.find? (·.methodKey? key == some k)

/-- Methods are told by their names. -/
def byName (_ : NamedMember) (text : String) : String :=
  text

/-- Methods are told by their names and by whether they are static. -/
def bySpace (m : NamedMember) (text : String) : String × Bool :=
  (text, m.head.has "static")

/-- The setters of a class, by their names and by whether they are static. -/
def setterKeys (ms : List ClassMember) : List (String × Bool) :=
  ms.filterMap fun m => match m with
    | .named ⟨head, name, _, .setter _⟩ => name.text?.map (·, head.has "static")
    | _ => none

namespace ReadingContext

/-- A record tells its entry; a getter is readonly when it is written so or cannot be written to. -/
structure Tells (c : ReadingContext) (settable : NamedMember → String → Prop) (e : Entry)
    (r : Member) : Prop where
  name : r.name = e.text
  kind : r.kind = e.kind
  source : r.source = some (c.location e.head.position)
  static : r.has .static = e.head.has "static"
  readonly : ∀ m text result body, e = .getter m text result body →
    (r.has .readonly = true ↔ m.head.has "readonly" = true ∨ ¬settable m text)

/-- Records of a class, one for each entry, methods going by a key. -/
def Reads (c : ReadingContext) {κ : Type} [DecidableEq κ] (key : NamedMember → String → κ)
    (settable : NamedMember → String → Prop) (ms : List ClassMember) (records : List Member) : Prop :=
  ∃ kept, OneEach key (entriesOf ms) kept ∧ List.Forall₂ (c.Tells settable) kept records

end ReadingContext

/-- The record of an entry; a getter can be written to as told. -/
def ReadingContext.record (c : ReadingContext) (ms : List ClassMember)
    (settable : NamedMember → String → Bool) : Entry → Member
  | .field head name text optional type value => c.field head name text optional type value
  | .getter m text result body => c.accessor ms m text (settable m text) result body
  | .method m text ps parameters result body => c.method m text ps parameters result body

/-- No name is used for methods, or for a getter and setters, both static and not. -/
structure SpacesApart (ms : List ClassMember) : Prop where
  methods : ∀ k ∈ (entriesOf ms).filterMap (Entry.methodKey? bySpace),
    ∀ k' ∈ (entriesOf ms).filterMap (Entry.methodKey? bySpace), k.1 = k'.1 → k = k'
  getters : ∀ m text result body, Entry.getter m text result body ∈ entriesOf ms →
    m.head.has "readonly" = false → text ∈ setterNames ms → bySpace m text ∈ setterKeys ms

/-! ## Reading as it goes on -/

section Reading

variable {κ : Type} [DecidableEq κ] {key : NamedMember → String → κ}

/-- The entries but for methods of which there is one among those seen or in front. -/
def keepUnseen (key : NamedMember → String → κ) (seen : List κ) : List Entry → List Entry
  | [] => []
  | e :: es =>
    match e.methodKey? key with
    | none => e :: keepUnseen key seen es
    | some k => if k ∈ seen then keepUnseen key seen es else e :: keepUnseen key (k :: seen) es

/-- Whether an entry is none of the methods that have been seen. -/
def Identity.isUnseen (seen : List κ) : Identity κ → Bool
  | .method k => k ∉ seen
  | .place _ => true

theorem Identity.isUnseen_cons (k : κ) (seen : List κ) (e : Identity κ) :
    e.isUnseen (k :: seen) = (e.isUnseen seen && e != .method k) := by
  cases e with
  | place i => simp [isUnseen]
  | method k' => by_cases h : k' = k <;> simp [isUnseen, h]

theorem Identity.isUnseen_of_mem {k : κ} {seen : List κ} (h : k ∈ seen) (e : Identity κ) :
    (e.isUnseen seen && e != .method k) = e.isUnseen seen := by
  cases e with
  | place i => simp [isUnseen]
  | method k' => by_cases hk : k' = k <;> simp [isUnseen, hk, h]

theorem keepUnseen_eq (seen : List κ) (es : List Entry) (n : Nat) :
    keepUnseen key seen es = ((firstBy (Entry.identity key) (es.zipIdx n)).filter fun e =>
      (Entry.identity key e).isUnseen seen).map (·.1) := by
  induction es generalizing seen n with
  | nil => rfl
  | cons e es ih =>
    have hrest (k : Identity κ) :
        firstBy (Entry.identity key) ((es.zipIdx (n + 1)).filter fun y =>
          Entry.identity key y != k) =
        (firstBy (Entry.identity key) (es.zipIdx (n + 1))).filter fun y =>
          Entry.identity key y != k :=
      (filter_firstBy (· != k) _).symm
    rw [List.zipIdx_cons, firstBy_cons, keepUnseen]
    cases hkey : e.methodKey? key with
    | none =>
      have hidentity : Entry.identity key (e, n) = .place n := by simp [Entry.identity, hkey]
      -- the entries behind have other places
      have hothers : ∀ y ∈ es.zipIdx (n + 1), (Entry.identity key y != .place n) = true := by
        intro y hy
        have hplace : n + 1 ≤ y.2 := (List.mem_zipIdx hy).1
        unfold Entry.identity
        cases y.1.methodKey? key with
        | none => simp; omega
        | some k => simp
      have hkept : (Identity.place n : Identity κ).isUnseen seen = true := rfl
      rw [hidentity, List.filter_eq_self.2 hothers, List.filter_cons, hidentity, if_pos hkept,
        List.map_cons]
      exact congrArg (e :: ·) (ih seen (n + 1))
    | some k =>
      have hidentity : Entry.identity key (e, n) = .method k := by simp [Entry.identity, hkey]
      rw [hidentity, hrest, List.filter_cons, hidentity, List.filter_filter]
      by_cases hk : k ∈ seen
      · have hdropped : ¬(Identity.method k).isUnseen seen = true := by simp [Identity.isUnseen, hk]
        simp only [hk, if_true, Identity.isUnseen_of_mem hk]
        rw [if_neg hdropped, ih seen (n + 1)]
      · have hkept : (Identity.method k).isUnseen seen = true := by simp [Identity.isUnseen, hk]
        simp only [hk, if_false]
        rw [if_pos hkept, List.map_cons, ih (k :: seen) (n + 1)]
        simp only [Identity.isUnseen_cons]

theorem keepUnseen_nil (ms : List ClassMember) :
    keepUnseen key [] (entriesOf ms) = readOnce key ms := by
  have hall (e : Identity κ) : e.isUnseen [] = true := by cases e <;> rfl
  rw [keepUnseen_eq [] _ 0, readOnce]
  simp [hall]

/-- Fields are read wherever they stand. -/
theorem keepUnseen_append {es es' : List Entry} (h : ∀ e ∈ es, e.methodKey? key = none)
    (seen : List κ) : keepUnseen key seen (es ++ es') = es ++ keepUnseen key seen es' := by
  induction es with
  | nil => rfl
  | cons e es ih =>
    rw [List.cons_append, keepUnseen, h e List.mem_cons_self]
    exact congrArg (e :: ·) (ih fun e' he' => h e' (List.mem_cons_of_mem e he'))

theorem keepUnseen_sublist (seen : List κ) (es : List Entry) :
    (keepUnseen key seen es).Sublist es := by
  induction es generalizing seen with
  | nil => exact List.Sublist.refl _
  | cons e es ih =>
    rw [keepUnseen]
    split
    · exact (ih seen).cons_cons e
    · split
      · exact (ih seen).cons e
      · exact (ih _).cons_cons e

theorem filter_keepUnseen (seen : List κ) (es : List Entry) :
    (keepUnseen key seen es).filter (fun e => (e.methodKey? key).isNone) =
      es.filter fun e => (e.methodKey? key).isNone := by
  induction es generalizing seen with
  | nil => rfl
  | cons e es ih =>
    rw [keepUnseen, List.filter_cons]
    cases hkey : e.methodKey? key with
    | none => simp [hkey, ih]
    | some k =>
      by_cases hk : k ∈ seen <;> simp [hkey, hk, ih]

theorem filterMap_keepUnseen (seen : List κ) (es : List Entry) :
    (keepUnseen key seen es).filterMap (Entry.methodKey? key) =
      ((es.filterMap (Entry.methodKey? key)).filter (· ∉ seen)).eraseDups := by
  induction es generalizing seen with
  | nil => rfl
  | cons e es ih =>
    rw [keepUnseen]
    cases hkey : e.methodKey? key with
    | none => rw [List.filterMap_cons_none hkey, List.filterMap_cons_none hkey, ih]
    | some k =>
      rw [List.filterMap_cons_some hkey, List.filter_cons]
      by_cases hk : k ∈ seen
      · simp only [hk, if_true, not_true_eq_false, decide_false, Bool.false_eq_true, if_false, ih]
      · simp only [hk, if_false, not_false_eq_true, decide_true, if_true]
        rw [List.filterMap_cons_some hkey, ih, List.eraseDups_cons, List.filter_filter]
        refine congrArg (fun l => k :: l.eraseDups) (List.filter_congr fun y _ => ?_)
        by_cases hy : y = k <;> simp [hy]

theorem find?_keepUnseen {k : κ} {seen : List κ} (hk : k ∉ seen) (es : List Entry) :
    (keepUnseen key seen es).find? (·.methodKey? key == some k) =
      es.find? (·.methodKey? key == some k) := by
  induction es generalizing seen with
  | nil => rfl
  | cons e es ih =>
    rw [keepUnseen, List.find?_cons]
    cases hkey : e.methodKey? key with
    | none => simp [hkey, ih hk]
    | some k' =>
      by_cases heq : k' = k
      · subst heq
        simp [hk, hkey]
      · have hother : (k' == k) = false := beq_false_of_ne heq
        by_cases hmem : k' ∈ seen
        · simp [hmem, hother, ih hk]
        · have hrest : k ∉ k' :: seen := by simp [Ne.symm heq, hk]
          simp [hmem, hkey, hother, ih hrest]

theorem oneEach_readOnce (key : NamedMember → String → κ) (ms : List ClassMember) :
    OneEach key (entriesOf ms) (readOnce key ms) := by
  rw [← keepUnseen_nil]
  refine ⟨keepUnseen_sublist _ _, filter_keepUnseen _ _, ?_, fun k => ?_⟩
  · rw [filterMap_keepUnseen]
    simp
  · exact find?_keepUnseen List.not_mem_nil _

theorem OneEach.length_eq {es kept kept' : List Entry} (h : OneEach key es kept)
    (h' : OneEach key es kept') : kept.length = kept'.length := by
  have hlength (l : List Entry) : l.length =
      (l.filterMap (Entry.methodKey? key)).length +
        (l.filter fun e => (e.methodKey? key).isNone).length := by
    rw [List.length_filterMap_eq_countP, ← List.countP_eq_length_filter,
      List.length_eq_countP_add_countP fun e => (e.methodKey? key).isSome]
    exact congrArg _ (List.countP_congr fun e _ => by simp)
  rw [hlength kept, hlength kept', h.methods, h'.methods, h.others, h'.others]

theorem mem_methodKeys_readOnce (key : NamedMember → String → κ) {ms : List ClassMember} {k : κ} :
    k ∈ (readOnce key ms).filterMap (Entry.methodKey? key) ↔
      k ∈ (entriesOf ms).filterMap (Entry.methodKey? key) := by
  rw [(oneEach_readOnce key ms).methods, List.mem_eraseDups]

end Reading

/-! ## Names and spaces -/

section Spaces

variable {ms : List ClassMember}

theorem methodKey?_byName (e : Entry) : e.methodKey? byName = (e.methodKey? bySpace).map (·.1) := by
  cases e <;> rfl

theorem mem_setterNames_of_mem_setterKeys {k : String × Bool}
    (h : k ∈ setterKeys ms) : k.1 ∈ setterNames ms := by
  obtain ⟨m, hm, hk⟩ := List.mem_filterMap.1 h
  refine List.mem_filterMap.2 ⟨m, hm, ?_⟩
  split at hk
  · obtain ⟨text, htext, rfl⟩ := Option.map_eq_some_iff.1 hk
    exact htext
  · cases hk

theorem identity_eq_iff {κ : Type} [DecidableEq κ] {key : NamedMember → String → κ}
    {x y : Entry × Nat} : Entry.identity key x = Entry.identity key y ↔
      x.1.methodKey? key = y.1.methodKey? key ∧ (x.1.methodKey? key = none → x.2 = y.2) := by
  unfold Entry.identity
  cases x.1.methodKey? key <;> cases y.1.methodKey? key <;> simp

/-- What tells entries apart by names tells no more of them apart than what goes by spaces too. -/
theorem identity_byName_of_bySpace {x y : Entry × Nat}
    (h : Entry.identity bySpace x = Entry.identity bySpace y) :
    Entry.identity byName x = Entry.identity byName y := by
  obtain ⟨hkeys, hplaces⟩ := identity_eq_iff.1 h
  rw [identity_eq_iff, methodKey?_byName, methodKey?_byName, hkeys]
  exact ⟨rfl, fun hnone => hplaces (hkeys.trans (Option.map_eq_none_iff.1 hnone))⟩

/-- Nor less, when methods of one name are of one space. -/
theorem identity_iff (h : ∀ k ∈ (entriesOf ms).filterMap (Entry.methodKey? bySpace),
    ∀ k' ∈ (entriesOf ms).filterMap (Entry.methodKey? bySpace), k.1 = k'.1 → k = k')
    {x y : Entry × Nat} (hx : x.1 ∈ entriesOf ms) (hy : y.1 ∈ entriesOf ms) :
    Entry.identity byName x = Entry.identity byName y ↔
      Entry.identity bySpace x = Entry.identity bySpace y := by
  refine ⟨fun hname => ?_, identity_byName_of_bySpace⟩
  rw [identity_eq_iff, methodKey?_byName, methodKey?_byName] at hname
  obtain ⟨hnames, hplaces⟩ := hname
  rw [identity_eq_iff]
  refine ⟨?_, fun hnone => hplaces (Option.map_eq_none_iff.2 hnone)⟩
  cases hkx : x.1.methodKey? bySpace with
  | none =>
    rw [hkx, Option.map_none, eq_comm, Option.map_eq_none_iff] at hnames
    exact hnames.symm
  | some k =>
    rw [hkx, Option.map_some, eq_comm, Option.map_eq_some_iff] at hnames
    obtain ⟨k', hky, hsame⟩ := hnames
    rw [hky, h k (List.mem_filterMap.2 ⟨x.1, hx, hkx⟩) k' (List.mem_filterMap.2 ⟨y.1, hy, hky⟩)
      hsame.symm]

theorem readOnce_eq (h : SpacesApart ms) : readOnce byName ms = readOnce bySpace ms := by
  have hentry {x : Entry × Nat} (hx : x ∈ (entriesOf ms).zipIdx) : x.1 ∈ entriesOf ms :=
    List.fst_mem_of_mem_zipIdx hx
  unfold readOnce
  rw [firstBy_congr fun x hx y hy => identity_iff h.methods (hentry hx) (hentry hy)]

/-- When as many entries are kept by names as by spaces, no name has methods in both spaces. -/
theorem methods_apart (h : (readOnce byName ms).length = (readOnce bySpace ms).length) :
    readOnce byName ms = readOnce bySpace ms ∧
      ∀ k ∈ (entriesOf ms).filterMap (Entry.methodKey? bySpace),
        ∀ k' ∈ (entriesOf ms).filterMap (Entry.methodKey? bySpace), k.1 = k'.1 → k = k' := by
  have hsublist : (firstBy (Entry.identity byName) (entriesOf ms).zipIdx).Sublist
      (firstBy (Entry.identity bySpace) (entriesOf ms).zipIdx) :=
    firstBy_sublist_firstBy (fun _ _ => identity_byName_of_bySpace) _
  have hkept : readOnce byName ms = readOnce bySpace ms := by
    unfold readOnce at h ⊢
    rw [List.length_map, List.length_map] at h
    rw [hsublist.eq_of_length h]
  have hnames : ((readOnce bySpace ms).filterMap (Entry.methodKey? byName)).Nodup := by
    rw [← hkept, (oneEach_readOnce byName ms).methods]
    exact nodup_eraseDups _
  have hmap : (readOnce bySpace ms).filterMap (Entry.methodKey? byName) =
      ((readOnce bySpace ms).filterMap (Entry.methodKey? bySpace)).map (·.1) := by
    rw [List.map_filterMap]
    exact List.filterMap_congr fun e _ => methodKey?_byName e
  rw [hmap] at hnames
  exact ⟨hkept, fun k hk k' hk' hsame => List.inj_on_of_nodup_map hnames
    ((mem_methodKeys_readOnce bySpace).2 hk) ((mem_methodKeys_readOnce bySpace).2 hk') hsame⟩

end Spaces

namespace ReadingContext

variable (c : ReadingContext)

theorem parameterFields_eq (all : List ClassMember) (settable : NamedMember → String → Bool)
    (ps : List Parameter) :
    c.parameterFields ps = (ps.filterMap Parameter.entry?).map (c.record all settable) := by
  induction ps with
  | nil => rfl
  | cons p ps ih =>
    unfold parameterFields at ih ⊢
    rw [List.filter_cons, List.filterMap_cons]
    cases hfield : p.declaresField with
    | false => simp [Parameter.entry?, hfield, ih]
    | true =>
      cases hname : p.name.text? with
      | none => simp [Parameter.entry?, hfield, hname, ih]
      | some text => simp [Parameter.entry?, hfield, hname, ih, record]

/-- Reading goes through the entries, and through methods by their names. -/
theorem membersFrom_eq (all : List ClassMember) (seen : List String) (ms : List ClassMember) :
    c.membersFrom all seen ms = (keepUnseen byName seen (entriesOf ms)).map
      (c.record all fun _ text => (setterNames all).contains text) := by
  induction ms generalizing seen with
  | nil => rfl
  | cons m ms ih =>
    have hentries : entriesOf (m :: ms) = m.entries ++ entriesOf ms := List.flatMap_cons
    rw [hentries]
    cases m with
    | unnamed => exact ih seen
    | creation ps =>
      have hfields : ∀ e ∈ ps.filterMap Parameter.entry?, e.methodKey? byName = none := by
        intro e he
        obtain ⟨p, -, hp⟩ := List.mem_filterMap.1 he
        unfold Parameter.entry? at hp
        obtain ⟨-, hp⟩ := Option.ite_none_right_eq_some.1 hp
        obtain ⟨text, -, rfl⟩ := Option.map_eq_some_iff.1 hp
        rfl
      rw [membersFrom, ih, ClassMember.entries, keepUnseen_append hfields, List.map_append,
        ← parameterFields_eq]
    | named m =>
      cases htext : m.name.text? with
      | none => simp [membersFrom, ClassMember.entries, htext, ih]
      | some text =>
        cases hform : m.form with
        | field type value =>
          simp [membersFrom, ClassMember.entries, NamedMember.entry?, htext, hform, ih, keepUnseen,
            Entry.methodKey?, record]
        | getter result body =>
          simp [membersFrom, ClassMember.entries, NamedMember.entry?, htext, hform, ih, keepUnseen,
            Entry.methodKey?, record]
        | setter type =>
          simp [membersFrom, ClassMember.entries, NamedMember.entry?, htext, hform, ih]
        | method ps parameters result body =>
          simp only [membersFrom, ClassMember.entries, NamedMember.entry?, htext, hform, ih,
            Option.bind_some, Option.toList_some, List.singleton_append, keepUnseen,
            Entry.methodKey?, byName, List.contains_iff_mem]
          split <;> rfl

/-- The records of a class are those of its entries, of methods of one name the first. -/
theorem members_eq (ms : List ClassMember) :
    c.members ms =
      (readOnce byName ms).map (c.record ms fun _ text => (setterNames ms).contains text) := by
  rw [members, membersFrom_eq, keepUnseen_nil]

/-! ## Records -/

theorem contains_ite_singleton {α : Type} [DecidableEq α] (b : Prop) [Decidable b] (x y : α) :
    (if b then [x] else []).contains y = (decide b && decide (y = x)) := by
  by_cases hb : b
  · rw [if_pos hb, decide_eq_true hb, Bool.true_and, List.contains_eq_mem]
    simp
  · rw [if_neg hb, decide_eq_false hb, Bool.false_and]
    rfl

/-- Modifiers other than private and optional are those that are written. -/
theorem contains_memberModifiers (head : Head) (name : MemberName) (optional : Bool)
    {m : MemberModifier} (hprivate : m ≠ .private) (hoptional : m ≠ .optional) :
    (memberModifiers head name optional).contains m = head.has m.text := by
  unfold memberModifiers
  simp only [List.contains_append, contains_ite_singleton]
  cases m <;> simp [MemberModifier.text] at hprivate hoptional ⊢

theorem has_member (head : Head) (name : String) (kind : MemberKind) (count : Option Nat)
    (type : TypeRef) (modifiers : List MemberModifier) (m : MemberModifier) :
    (c.member head name kind count type modifiers).has m = modifiers.contains m := by
  unfold member Member.has
  cases modifiers <;> rfl

theorem has_static_record (ms : List ClassMember) (settable : NamedMember → String → Bool)
    (e : Entry) : (c.record ms settable e).has .static = e.head.has "static" := by
  have hprivate : MemberModifier.static ≠ .private := by decide
  have hoptional : MemberModifier.static ≠ .optional := by decide
  cases e with
  | field => exact (c.has_member ..).trans (contains_memberModifiers _ _ _ hprivate hoptional)
  | method => exact (c.has_member ..).trans (contains_memberModifiers _ _ _ hprivate hoptional)
  | getter m =>
    refine (c.has_member ..).trans
      (Eq.trans ?_ (contains_memberModifiers m.head m.name false hprivate hoptional))
    split <;> simp

theorem has_readonly_getter_iff (ms : List ClassMember) (settable : NamedMember → String → Bool)
    (m : NamedMember) (text : String) (result : Option TypeExpr) (body : Body) :
    (c.record ms settable (.getter m text result body)).has .readonly = true ↔
      m.head.has "readonly" = true ∨ settable m text = false := by
  have hwritten : (memberModifiers m.head m.name false).contains .readonly =
      m.head.has "readonly" :=
    contains_memberModifiers m.head m.name false (by decide) (by decide)
  rw [← hwritten]
  refine Iff.trans (Eq.congr_left (c.has_member ..)) ?_
  cases settable m text with
  | true => simp
  | false =>
    by_cases hmem : .readonly ∈ memberModifiers m.head m.name false <;> simp [hmem]

theorem tells_record (ms : List ClassMember) (settable : NamedMember → String → Bool) (e : Entry) :
    c.Tells (settable · · = true) e (c.record ms settable e) where
  name := by cases e <;> rfl
  kind := by cases e <;> rfl
  source := by cases e <;> rfl
  static := c.has_static_record ms settable e
  readonly := by
    rintro m text result body rfl
    rw [has_readonly_getter_iff, Bool.not_eq_true]

theorem reads_readOnce {κ : Type} [DecidableEq κ] (key : NamedMember → String → κ)
    (ms : List ClassMember) (settable : NamedMember → String → Bool) :
    c.Reads key (settable · · = true) ms ((readOnce key ms).map (c.record ms settable)) :=
  ⟨readOnce key ms, oneEach_readOnce key ms,
    List.forall₂_map_right_iff.2 (List.forall₂_same.2 fun e _ => c.tells_record ms settable e)⟩

variable {ms : List ClassMember}

/-- What is no method is told by the records that are of no method, whatever methods go by. -/
theorem tells_others {κ : Type} [DecidableEq κ] {key : NamedMember → String → κ}
    {settable : NamedMember → String → Prop} {rs : List Member} (h : c.Reads key settable ms rs) :
    List.Forall₂ (c.Tells settable) ((entriesOf ms).filter (·.kind != .method))
      (rs.filter (·.kind != .method)) := by
  obtain ⟨kept, honce, hrecords⟩ := h
  have hkind (e : Entry) : (e.methodKey? key).isNone = (e.kind != .method) := by cases e <;> rfl
  have hothers := honce.others
  simp only [hkind] at hothers
  rw [← hothers]
  refine List.rel_filter (R := c.Tells settable) (fun e r htells => ?_) hrecords
  show (e.kind != .method) = true ↔ (r.kind != .method) = true
  rw [htells.kind]

theorem settable_iff_of_reads {κ κ' : Type} [DecidableEq κ] [DecidableEq κ']
    {key : NamedMember → String → κ} {key' : NamedMember → String → κ'}
    {settable settable' : NamedMember → String → Prop} {rs : List Member}
    (h : c.Reads key settable ms rs) (h' : c.Reads key' settable' ms rs)
    {m : NamedMember} {text : String} {result : Option TypeExpr} {body : Body}
    (hmem : Entry.getter m text result body ∈ entriesOf ms) :
    (m.head.has "readonly" = true ∨ ¬settable m text) ↔
      (m.head.has "readonly" = true ∨ ¬settable' m text) := by
  have hgetter : Entry.getter m text result body ∈
      (entriesOf ms).filter (·.kind != .method) := List.mem_filter.2 ⟨hmem, rfl⟩
  obtain ⟨i, hi⟩ := List.mem_iff_get.1 hgetter
  -- the same record tells the getter in both ways
  obtain ⟨hlength, htells⟩ := List.forall₂_iff_get.1 (c.tells_others h)
  obtain ⟨-, htells'⟩ := List.forall₂_iff_get.1 (c.tells_others h')
  have hi' : i.1 < (rs.filter (·.kind != .method)).length := by rw [← hlength]; exact i.2
  exact ((htells i i.2 hi').readonly m text result body hi).symm.trans
    ((htells' i i.2 hi').readonly m text result body hi)

/-! ## Members -/

theorem reads_members (ms : List ClassMember) :
    c.Reads byName (fun _ text => text ∈ setterNames ms) ms (c.members ms) := by
  have hreads := c.reads_readOnce byName ms fun _ text => (setterNames ms).contains text
  simpa only [members_eq, List.contains_iff_mem] using hreads

/-- The members of a class are one for each entry, methods and setters going by their names. They are
as many as there should be, with getters marked as they should, exactly when static members and others
do not share names. -/
theorem members_lossless_iff (ms : List ClassMember) :
    c.Reads byName (fun _ text => text ∈ setterNames ms) ms (c.members ms) ∧
      (c.Reads bySpace (fun m text => bySpace m text ∈ setterKeys ms) ms (c.members ms) ↔
        SpacesApart ms) := by
  have hnames := c.reads_members ms
  refine ⟨hnames, fun hspaces => ?_, fun hapart => ?_⟩
  · have hlength : (readOnce byName ms).length = (readOnce bySpace ms).length := by
      obtain ⟨kept, honce, hrecords⟩ := hnames
      obtain ⟨kept', honce', hrecords'⟩ := hspaces
      rw [← honce.length_eq (oneEach_readOnce byName ms),
        ← honce'.length_eq (oneEach_readOnce bySpace ms), hrecords.length_eq, hrecords'.length_eq]
    refine ⟨(methods_apart hlength).2, fun m text result body hgetter hwritten hsetter => ?_⟩
    have hsettable := c.settable_iff_of_reads hnames hspaces hgetter
    simpa [hwritten, hsetter] using hsettable
  · rw [members_eq, readOnce_eq hapart]
    refine ⟨readOnce bySpace ms, oneEach_readOnce bySpace ms,
      List.forall₂_map_right_iff.2 (List.forall₂_same.2 fun e he => ?_)⟩
    have htells := c.tells_record ms (fun _ text => (setterNames ms).contains text) e
    refine ⟨htells.name, htells.kind, htells.source, htells.static, ?_⟩
    rintro m text result body rfl
    rw [htells.readonly m text result body rfl, List.contains_iff_mem]
    have hgetter := (oneEach_readOnce bySpace ms).order.subset he
    cases hwritten : m.head.has "readonly" with
    | true => simp
    | false =>
      have hiff : text ∈ setterNames ms ↔ bySpace m text ∈ setterKeys ms :=
        ⟨hapart.getters m text result body hgetter hwritten, mem_setterNames_of_mem_setterKeys⟩
      rw [hiff]

namespace Sample

/-- A member at the beginning of a text. -/
def memberOf (name : String) (modifiers : List String) (form : MemberForm) : ClassMember :=
  .named ⟨⟨default, [], modifiers, []⟩, .plain name, false, form⟩

/-- `static getName() {…} getName() {…} static set title(value) {…} get title() {…}` -/
def person : List ClassMember :=
  [memberOf "getName" ["static"] (.method [] [] none .yielding),
    memberOf "getName" [] (.method [] [] none .yielding),
    memberOf "title" ["static"] (.setter none), memberOf "title" [] (.getter none .yielding)]

def context : ReadingContext :=
  ⟨⟨default, default, []⟩, "model/Person.ts"⟩

end Sample

/-- A method is lost behind a static one, and a getter that cannot be written to is not readonly. -/
theorem exists_lost_method :
    (Sample.context.members Sample.person).map
        (fun r => (r.name, r.has .static, r.has .readonly)) =
      [("getName", true, false), ("title", false, false)] ∧
    ¬Sample.context.Reads bySpace (fun m text => bySpace m text ∈ setterKeys Sample.person)
      Sample.person (Sample.context.members Sample.person) := by
  have hrecords : (Sample.context.members Sample.person).map
      (fun r => (r.name, r.has .static, r.has .readonly)) =
        [("getName", true, false), ("title", false, false)] := by decide
  refine ⟨hrecords, ?_⟩
  rintro ⟨kept, honce, htells⟩
  have hkept : kept.length = 3 := by
    rw [honce.length_eq (oneEach_readOnce bySpace Sample.person), ← keepUnseen_nil]
    rfl
  have hlength : (Sample.context.members Sample.person).length = 2 := by
    simpa using congrArg List.length hrecords
  rw [htells.length_eq, hlength] at hkept
  cases hkept

end ReadingContext

end Metamodel.Source
