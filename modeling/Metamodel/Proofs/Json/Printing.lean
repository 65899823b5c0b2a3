import Mathlib.Data.List.Forall2
import Metamodel.Json.Lexer
import Metamodel.Json.Printer
import Metamodel.Proofs.Decimal.Text

/-!
# Printed values

A printed value tells the value and where its text ends (`IsValue.tells`): the first character
tells the sort of the value, strings and numbers tell where they end, and a container goes on with a
comma or closes. Conversely values that differ in nothing but the spelling of their numbers have one
text (`print_congr`).
-/

namespace Metamodel.Json

open Decimal

/-! ## Strings -/

/-- A control character's escape stands for its code. -/
theorem hexUnit?_of_lt {n : Nat} (h : n < 0x20) :
    hexUnit? '0' '0' (hexDigit (n / 16)) (hexDigit (n % 16)) = some n := by
  have hall : ∀ n : Fin 0x20,
      hexUnit? '0' '0' (hexDigit (n.val / 16)) (hexDigit (n.val % 16)) = some n.val := by decide
  exact hall ⟨n, h⟩

theorem unitChar_toNat {c : Char} (h : c.toNat < 0x20) : unitChar c.toNat = c := by
  have hsurrogate : ¬ (0xD800 ≤ c.toNat && c.toNat < 0xE000) = true := by
    rw [Bool.and_eq_true, decide_eq_true_eq, decide_eq_true_eq]
    omega
  unfold unitChar
  rw [if_neg hsurrogate, Char.ofNat_toNat]

theorem pairChar?_of_lt {m : Nat} (h : m < 0x20) (n : Nat) : pairChar? m n = none := by
  unfold pairChar?
  rw [if_neg]
  simp only [Bool.and_eq_true, decide_eq_true_eq, not_and]
  omega

theorem stringBody?_unit {c : Char} (h : c.toNat < 0x20) (rest : List Char) :
    stringBody? ('\\' :: 'u' :: '0' :: '0' :: hexDigit (c.toNat / 16) ::
      hexDigit (c.toNat % 16) :: rest) = (stringBody? rest).map fun r => (c :: r.1, r.2) := by
  have hunit := hexUnit?_of_lt h
  have hchar := unitChar_toNat h
  rw [stringBody?.eq_def]
  split
  · rename_i heq
    cases heq
  · rename_i heq
    cases heq
  · rename_i e f g k _ heq
    cases heq
    rw [hunit]
    cases hexUnit? e f g k with
    | none => simp [hchar]
    | some n => simp [hchar, pairChar?_of_lt h]
  · rename_i heq
    cases heq
    rw [hunit]
    simp [hchar]
  · rename_i hnone heq
    cases heq
    exact (hnone _ _ _ _ _ rfl rfl).elim
  · rename_i hnone heq
    cases heq
    exact (hnone _ _ rfl rfl).elim

theorem stringBody?_plain {c : Char} (hquote : c ≠ '"') (hslash : c ≠ '\\') (h : ¬ c.toNat < 0x20)
    (rest : List Char) :
    stringBody? (c :: rest) = (stringBody? rest).map fun r => (c :: r.1, r.2) := by
  have hplain : ¬ (c.toNat < 0x20 || c == '\\') = true := by
    simp [hslash]
    omega
  rw [stringBody?.eq_def]
  split <;> rename_i heq <;> cases heq
  · exact absurd rfl hquote
  · exact absurd rfl hslash
  · exact absurd rfl hslash
  · exact absurd rfl hslash
  · rw [if_neg hplain]

theorem stringBody?_mark {e c : Char}
    (hmark : (e, c) ∈ [('"', '"'), ('\\', '\\'), ('b', '\x08'), ('f', '\x0c'), ('n', '\n'),
      ('r', '\r'), ('t', '\t')]) (rest : List Char) :
    stringBody? ('\\' :: e :: rest) = (stringBody? rest).map fun r => (c :: r.1, r.2) := by
  simp only [List.mem_cons, Prod.mk.injEq, List.not_mem_nil, or_false] at hmark
  obtain ⟨rfl, rfl⟩ | ⟨rfl, rfl⟩ | ⟨rfl, rfl⟩ | ⟨rfl, rfl⟩ | ⟨rfl, rfl⟩ | ⟨rfl, rfl⟩ | ⟨rfl, rfl⟩ :=
    hmark <;> simp [stringBody?, List.lookup_cons]

/-- The escape of a character reads back as the character. -/
theorem stringBody?_escapeChar (c : Char) (rest : List Char) :
    stringBody? (escapeChar c ++ rest) = (stringBody? rest).map fun r => (c :: r.1, r.2) := by
  by_cases hmark : c ∈ ['"', '\\', '\x08', '\x0c', '\n', '\r', '\t']
  · simp only [List.mem_cons, List.not_mem_nil, or_false] at hmark
    obtain rfl | rfl | rfl | rfl | rfl | rfl | rfl := hmark <;>
      exact stringBody?_mark (by decide) rest
  · simp only [List.mem_cons, List.not_mem_nil, or_false, not_or] at hmark
    simp only [escapeChar, beq_iff_eq, hmark, if_false]
    split
    · rename_i h
      exact stringBody?_unit h rest
    · rename_i h
      exact stringBody?_plain hmark.1 hmark.2.1 h rest

/-- The body of a printed string reads back as the string. -/
theorem stringBody?_flatMap (cs rest : List Char) :
    stringBody? (cs.flatMap escapeChar ++ '"' :: rest) = some (cs, rest) := by
  induction cs with
  | nil => simp [stringBody?]
  | cons c cs ih =>
    rw [List.flatMap_cons, List.append_assoc, stringBody?_escapeChar, ih, Option.map_some]

/-- A printed string tells the string and where it ends. -/
theorem printString_append_inj {s t : String} {r r' : List Char}
    (h : printString s ++ r = printString t ++ r') : s = t ∧ r = r' := by
  have hbody := congrArg (fun cs => stringBody? (cs.drop 1)) h
  simp only [printString, List.cons_append, List.append_assoc, List.drop_succ_cons, List.drop_zero,
    List.nil_append, stringBody?_flatMap, Option.some.injEq, Prod.mk.injEq] at hbody
  exact ⟨String.toList_inj.1 hbody.1, hbody.2⟩

/-! ## Agreement -/

/-- A value as a JSON document can hold it: its numbers are finite, and the members of an object
have names of their own, none of which is that of the prototype. -/
inductive IsValue : Json → Prop where
  | null : IsValue .null
  | bool (b : Bool) : IsValue (.bool b)
  | number (s : Bool) (m : Magnitude) : IsValue (.number (.finite s m))
  | string (s : String) : IsValue (.string s)
  | array {xs : List Json} (items : ∀ x ∈ xs, IsValue x) : IsValue (.array xs)
  | object {ms : List (String × Json)} (names : (ms.map Prod.fst).Nodup)
      (prototype : prototypeName ∉ ms.map Prod.fst) (members : ∀ m ∈ ms, IsValue m.2) :
      IsValue (.object ms)

/-- The values are the same, numbers by what they count, when the members of both are rearranged in
a certain way at every depth. -/
inductive AgreesUpTo (rearranged : List (String × Json) → List (String × Json) → Prop) :
    Json → Json → Prop where
  | null : AgreesUpTo rearranged .null .null
  | bool (b : Bool) : AgreesUpTo rearranged (.bool b) (.bool b)
  | number {s t : Bool} {m n : Magnitude}
      (h : (Binary64.finite s m).signedUnits = (Binary64.finite t n).signedUnits) :
      AgreesUpTo rearranged (.number (.finite s m)) (.number (.finite t n))
  | string (s : String) : AgreesUpTo rearranged (.string s) (.string s)
  | array {xs ys : List Json} (items : List.Forall₂ (AgreesUpTo rearranged) xs ys) :
      AgreesUpTo rearranged (.array xs) (.array ys)
  | object {ms ms' ns ns' : List (String × Json)} (left : rearranged ms ms')
      (right : rearranged ns ns') (names : ms'.map Prod.fst = ns'.map Prod.fst)
      (values : List.Forall₂ (AgreesUpTo rearranged) (ms'.map Prod.snd) (ns'.map Prod.snd)) :
      AgreesUpTo rearranged (.object ms) (.object ns)

/-- The values are the same in the order of their members. -/
abbrev Alike : Json → Json → Prop :=
  AgreesUpTo Eq

/-! ## Values -/

/-- The sort of a value. -/
inductive Kind where
  | null
  | bool
  | number
  | string
  | array
  | object
  deriving DecidableEq

def kind : Json → Kind
  | null => .null
  | bool _ => .bool
  | number _ => .number
  | string _ => .string
  | array _ => .array
  | object _ => .object

/-- The sort of the values that are printed with the first character. -/
def kindOfInitial? (c : Char) : Option Kind :=
  if c = 'n' then some .null
  else if c = 't' ∨ c = 'f' then some .bool
  else if c = '"' then some .string
  else if c = '[' then some .array
  else if c = '\x7b' then some .object
  else if isNumberChar c then some .number
  else none

theorem isNumberChar_of_mem_text {s : Bool} {m : Magnitude} {c : Char}
    (h : c ∈ (Binary64.finite s m).text.toList) : isNumberChar c = true := by
  obtain h | h := Binary64.isWrittenBy_of_mem_text h
  · simp [isNumberChar, h]
  · simp only [List.mem_cons, List.not_mem_nil, or_false] at h
    obtain rfl | rfl | rfl | rfl := h <;> decide

theorem kindOfInitial?_of_isNumberChar {c : Char} (h : isNumberChar c = true) :
    kindOfInitial? c = some .number := by
  have hne (d : Char) (hd : isNumberChar d = false) : c ≠ d := by
    rintro rfl
    rw [h] at hd
    cases hd
  unfold kindOfInitial?
  rw [if_neg (hne _ (by decide)), if_neg (not_or.2 ⟨hne _ (by decide), hne _ (by decide)⟩),
    if_neg (hne _ (by decide)), if_neg (hne _ (by decide)), if_neg (hne _ (by decide)), if_pos h]

/-- The first character tells the sort of a value. -/
theorem head?_print {v : Json} (hv : IsValue v) (gap depth : Nat) (r : List Char) :
    (print gap depth v ++ r).head?.bind kindOfInitial? = some v.kind := by
  cases hv with
  | null => rfl
  | bool b => cases b <;> rfl
  | number s m =>
    obtain ⟨c, cs, htext⟩ :=
      List.exists_cons_of_ne_nil (Binary64.text_finite_ne_nil (s := s) (m := m))
    have hc : isNumberChar c = true :=
      isNumberChar_of_mem_text (s := s) (m := m) (htext ▸ List.mem_cons_self)
    have hprint : print gap depth (.number (.finite s m)) = c :: cs := by
      rw [← htext, print, printNumber]
    rw [hprint]
    exact kindOfInitial?_of_isNumberChar hc
  | string s => rfl
  | @array xs items => cases xs <;> rfl
  | @object ms names prototype members => cases ms <;> rfl

theorem kind_eq {a b : Json} (ha : IsValue a) (hb : IsValue b) {gap depth : Nat} {r r' : List Char}
    (h : print gap depth a ++ r = print gap depth b ++ r') : a.kind = b.kind := by
  have hhead := congrArg (fun cs => cs.head?.bind kindOfInitial?) h
  simpa only [head?_print ha, head?_print hb, Option.some.injEq] using hhead

/-! ## Ends of values -/

/-- What follows a value does not go on with a number. -/
def EndsNumber (r : List Char) : Prop :=
  ∀ c ∈ r.head?, isNumberChar c = false

/-- What follows the last item or member ends the container. -/
structure Closes (r : List Char) : Prop where
  endsNumber : EndsNumber r
  noComma : r.head? ≠ some ','

theorem closes_lineBreak {c : Char} (hc : isNumberChar c = false) (hcomma : c ≠ ',')
    (gap depth : Nat) (r : List Char) : Closes (lineBreak gap depth ++ c :: r) := by
  unfold lineBreak
  split
  · exact ⟨by simpa [EndsNumber] using hc, by simpa using hcomma⟩
  · have hbreak : isNumberChar '\n' = false := by decide
    exact ⟨by simpa [EndsNumber] using hbreak, by simp⟩

/-- The text of the value tells the value and where it ends. -/
def Tells (gap depth : Nat) (x : Json) : Prop :=
  ∀ ⦃y : Json⦄, IsValue y → ∀ ⦃r r' : List Char⦄, EndsNumber r → EndsNumber r' →
    print gap depth x ++ r = print gap depth y ++ r' → Alike x y ∧ r = r'

section Containers

variable {α : Type} {gap depth : Nat} {part : α → List Char}

/-- The parts of a container, each behind a comma on a line of its own. -/
def printParts (gap depth : Nat) (part : α → List Char) (as : List α) : List Char :=
  as.flatMap fun a => ',' :: lineBreak gap depth ++ part a

/-- The parts of a container between its brackets; the first part has no comma. -/
def enclose (gap depth : Nat) (opening closing : Char) (part : α → List Char) :
    List α → List Char
  | [] => [opening, closing]
  | a :: as =>
    opening :: lineBreak gap (depth + 1) ++ part a ++ printParts gap (depth + 1) part as ++
      lineBreak gap depth ++ [closing]

/-- A member with its name. -/
def printMember (gap depth : Nat) (m : String × Json) : List Char :=
  printString m.1 ++ nameMark gap ++ print gap depth m.2

theorem printItems_eq (xs : List Json) :
    printItems gap depth xs = printParts gap depth (print gap depth) xs := by
  induction xs with
  | nil => rfl
  | cons x xs ih => simp [printItems, printParts, ih]

theorem printMembers_eq (ms : List (String × Json)) :
    printMembers gap depth ms = printParts gap depth (printMember gap depth) ms := by
  induction ms with
  | nil => rfl
  | cons m ms ih => simp [printMembers, printParts, printMember, ih]

theorem print_array (xs : List Json) :
    print gap depth (.array xs) = enclose gap depth '[' ']' (print gap (depth + 1)) xs := by
  cases xs with
  | nil => rfl
  | cons x xs => rw [print, enclose, printItems_eq]

theorem print_object (ms : List (String × Json)) :
    print gap depth (.object ms) =
      enclose gap depth '\x7b' '\x7d' (printMember gap (depth + 1)) ms := by
  cases ms with
  | nil => rfl
  | cons m ms => simp [print, enclose, printMembers_eq, printMember]

theorem endsNumber_printParts {r : List Char} (hr : Closes r) (as : List α) :
    EndsNumber (printParts gap depth part as ++ r) := by
  cases as with
  | nil => exact hr.endsNumber
  | cons a as =>
    simp only [EndsNumber, printParts, List.flatMap_cons, List.cons_append, List.head?_cons,
      Option.mem_some_iff, forall_eq']
    decide

theorem printParts_append_inj {r : α → α → Prop} {as bs : List α}
    (hparts : ∀ a ∈ as, ∀ b ∈ bs, ∀ t t', EndsNumber t → EndsNumber t' →
      part a ++ t = part b ++ t' → r a b ∧ t = t')
    {t t' : List Char} (ht : Closes t) (ht' : Closes t')
    (h : printParts gap depth part as ++ t = printParts gap depth part bs ++ t') :
    List.Forall₂ r as bs ∧ t = t' := by
  induction as generalizing bs with
  | nil =>
    cases bs with
    | nil => exact ⟨.nil, h⟩
    | cons b bs =>
      have hhead := congrArg List.head? h
      exact absurd hhead ht.noComma
  | cons a as ih =>
    cases bs with
    | nil =>
      have hhead := congrArg List.head? h.symm
      exact absurd hhead ht'.noComma
    | cons b bs =>
      simp only [printParts, List.flatMap_cons, List.cons_append, List.append_assoc,
        List.cons.injEq, true_and, List.append_cancel_left_eq] at h
      obtain ⟨hab, hrest⟩ := hparts a List.mem_cons_self b List.mem_cons_self _ _
        (endsNumber_printParts ht as) (endsNumber_printParts ht' bs) h
      obtain ⟨habs, hend⟩ := ih (fun a ha b hb =>
        hparts a (List.mem_cons_of_mem _ ha) b (List.mem_cons_of_mem _ hb)) hrest
      exact ⟨.cons hab habs, hend⟩

/-- A container does not close where its first part stands. -/
theorem lineBreak_append_ne {c : Char} (hc : kindOfInitial? c = none) (hbreak : c ≠ '\n')
    {tail : List Char} (htail : (tail.head?.bind kindOfInitial?).isSome = true) (t : List Char) :
    lineBreak gap depth ++ tail ≠ c :: t := by
  intro h
  unfold lineBreak at h
  split at h
  · rw [List.nil_append] at h
    rw [h, List.head?_cons, Option.bind_some, hc] at htail
    cases htail
  · exact hbreak (List.cons.inj h).1.symm

/-- The text of a container tells its parts and where it ends, if the parts tell where they end. -/
theorem enclose_append_inj {opening closing : Char} (hkind : kindOfInitial? closing = none)
    (hbreak : closing ≠ '\n') (hcomma : closing ≠ ',') {r : α → α → Prop} {as bs : List α}
    (has : ∀ a ∈ as, ∀ t, ((part a ++ t).head?.bind kindOfInitial?).isSome = true)
    (hbs : ∀ b ∈ bs, ∀ t, ((part b ++ t).head?.bind kindOfInitial?).isSome = true)
    (hparts : ∀ a ∈ as, ∀ b ∈ bs, ∀ t t', EndsNumber t → EndsNumber t' →
      part a ++ t = part b ++ t' → r a b ∧ t = t') {t t' : List Char}
    (h : enclose gap depth opening closing part as ++ t =
      enclose gap depth opening closing part bs ++ t') :
    List.Forall₂ r as bs ∧ t = t' := by
  have hnumber : isNumberChar closing = false := by
    rw [← Bool.not_eq_true]
    intro hnumber
    rw [kindOfInitial?_of_isNumberChar hnumber] at hkind
    cases hkind
  have hcloses (t : List Char) : Closes (lineBreak gap depth ++ closing :: t) :=
    closes_lineBreak hnumber hcomma gap depth t
  cases as with
  | nil =>
    cases bs with
    | nil => exact ⟨.nil, List.append_cancel_left h⟩
    | cons b bs =>
      simp only [enclose, List.cons_append, List.nil_append, List.append_assoc, List.cons.injEq,
        true_and] at h
      exact absurd h.symm (lineBreak_append_ne hkind hbreak (hbs b List.mem_cons_self _) _)
  | cons a as =>
    cases bs with
    | nil =>
      simp only [enclose, List.cons_append, List.nil_append, List.append_assoc, List.cons.injEq,
        true_and] at h
      exact absurd h (lineBreak_append_ne hkind hbreak (has a List.mem_cons_self _) _)
    | cons b bs =>
      have hall : printParts gap (depth + 1) part (a :: as) ++
            (lineBreak gap depth ++ closing :: t) =
          printParts gap (depth + 1) part (b :: bs) ++ (lineBreak gap depth ++ closing :: t') := by
        simpa [enclose, printParts] using h
      obtain ⟨hforall, hend⟩ := printParts_append_inj hparts (hcloses t) (hcloses t') hall
      exact ⟨hforall, by simpa using hend⟩

theorem enclose_congr {opening closing : Char} {r : α → α → Prop} {as bs : List α}
    (h : List.Forall₂ r as bs) (hparts : ∀ a ∈ as, ∀ b, r a b → part a = part b) :
    enclose gap depth opening closing part as = enclose gap depth opening closing part bs := by
  have hall {as bs : List α} (h : List.Forall₂ r as bs)
      (hparts : ∀ a ∈ as, ∀ b, r a b → part a = part b) :
      printParts gap (depth + 1) part as = printParts gap (depth + 1) part bs := by
    induction h with
    | nil => rfl
    | cons hab _ ih =>
      obtain ⟨ha, has⟩ := List.forall_mem_cons.1 hparts
      have hrest := ih has
      unfold printParts at hrest ⊢
      rw [List.flatMap_cons, List.flatMap_cons, ha _ hab, hrest]
  cases h with
  | nil => rfl
  | cons hab hrest =>
    obtain ⟨ha, has⟩ := List.forall_mem_cons.1 hparts
    rw [enclose, enclose, ha _ hab, hall hrest has]

end Containers

theorem Tells.member {gap depth : Nat} {m n : String × Json} (hm : Tells gap depth m.2)
    (hn : IsValue n.2) {t t' : List Char} (ht : EndsNumber t) (ht' : EndsNumber t')
    (h : printMember gap depth m ++ t = printMember gap depth n ++ t') :
    (m.1 = n.1 ∧ Alike m.2 n.2) ∧ t = t' := by
  simp only [printMember, List.append_assoc] at h
  obtain ⟨hname, hvalue⟩ := printString_append_inj h
  obtain ⟨hmn, hend⟩ := hm hn ht ht' (List.append_cancel_left hvalue)
  exact ⟨⟨hname, hmn⟩, hend⟩

/-- Members that agree in their names and values. -/
theorem forall₂_members_iff {r : Json → Json → Prop} {ms ns : List (String × Json)} :
    List.Forall₂ (fun m n => m.1 = n.1 ∧ r m.2 n.2) ms ns ↔
      ms.map Prod.fst = ns.map Prod.fst ∧
        List.Forall₂ r (ms.map Prod.snd) (ns.map Prod.snd) := by
  induction ms generalizing ns with
  | nil => cases ns <;> simp
  | cons m ms ih =>
    cases ns with
    | nil => simp
    | cons n ns =>
      simp only [List.forall₂_cons, ih, List.map_cons, List.cons.injEq]
      tauto

theorem IsValue.tells {a : Json} (ha : IsValue a) (gap depth : Nat) : Tells gap depth a := by
  induction ha generalizing depth with
  | null =>
    intro b hb r r' _ _ h
    have hkind := kind_eq .null hb h
    cases hb <;> cases hkind
    exact ⟨.null, List.append_cancel_left h⟩
  | bool c =>
    intro b hb r r' _ _ h
    have hkind := kind_eq (.bool c) hb h
    cases hb <;> cases hkind
    rename_i d
    have hcd : c = d := by
      cases c <;> cases d <;> simp [print] at h ⊢
    subst hcd
    exact ⟨.bool c, List.append_cancel_left h⟩
  | number s m =>
    intro b hb r r' hr hr' h
    have hkind := kind_eq (.number s m) hb h
    cases hb <;> cases hkind
    simp only [print, printNumber] at h
    obtain ⟨htext, hrest⟩ := Text.run_append_inj (fun c => isNumberChar_of_mem_text)
      (fun c => isNumberChar_of_mem_text) hr hr' h
    exact ⟨.number (Binary64.text_eq_iff.1 (String.toList_inj.1 htext)), hrest⟩
  | string s =>
    intro b hb r r' _ _ h
    have hkind := kind_eq (.string s) hb h
    cases hb <;> cases hkind
    simp only [print] at h
    obtain ⟨rfl, hrest⟩ := printString_append_inj h
    exact ⟨.string s, hrest⟩
  | array items ih =>
    intro b hb r r' _ _ h
    have hkind := kind_eq (.array items) hb h
    cases hb <;> cases hkind
    rename_i hys
    have hstart {x : Json} (hx : IsValue x) (t : List Char) :
        ((print gap (depth + 1) x ++ t).head?.bind kindOfInitial?).isSome = true := by
      rw [head?_print hx]
      rfl
    rw [print_array, print_array] at h
    obtain ⟨hitems, hend⟩ := enclose_append_inj (by decide) (by decide) (by decide)
      (fun x hx => hstart (items x hx)) (fun y hy => hstart (hys y hy))
      (fun x hx y hy _ _ ht ht' heq => ih x hx _ (hys y hy) ht ht' heq) h
    exact ⟨.array hitems, hend⟩
  | object names prototype members ih =>
    intro b hb r r' _ _ h
    have hkind := kind_eq (.object names prototype members) hb h
    cases hb <;> cases hkind
    rename_i hns
    rw [print_object, print_object] at h
    obtain ⟨hmembers, hend⟩ := enclose_append_inj (by decide) (by decide) (by decide)
      (fun _ _ _ => rfl) (fun _ _ _ => rfl)
      (fun m hm n hn _ _ ht ht' heq => (ih m hm _).member (hns n hn) ht ht' heq) h
    obtain ⟨hnames, hvalues⟩ := forall₂_members_iff.1 hmembers
    exact ⟨.object rfl rfl hnames hvalues, hend⟩


/-! ## Values that are alike -/

/-- Values that are alike have one text. -/
theorem print_congr {a b : Json} (ha : IsValue a) (h : Alike a b) (gap depth : Nat) :
    print gap depth a = print gap depth b := by
  induction ha generalizing b depth with
  | null =>
    cases h
    rfl
  | bool c =>
    cases h
    rfl
  | number s m =>
    cases h with
    | number h => simp only [print, printNumber, Binary64.text_eq_iff.2 h]
  | string s =>
    cases h
    rfl
  | array items ih =>
    cases h with
    | array hitems =>
      rw [print_array, print_array]
      exact enclose_congr hitems fun x hx y hxy => ih x hx hxy (depth + 1)
  | @object ms names prototype members ih =>
    cases h with
    | @object _ _ ns _ hleft hright hnames hvalues =>
      subst hleft hright
      rw [print_object, print_object]
      refine enclose_congr (forall₂_members_iff.2 ⟨hnames, hvalues⟩) fun m hm n hmn => ?_
      rw [printMember, printMember, hmn.1, ih m hm hmn.2 (depth + 1)]

end Metamodel.Json
