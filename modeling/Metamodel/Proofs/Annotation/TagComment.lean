import Mathlib.Data.List.Nodup
import Mathlib.Data.List.TakeWhile
import Metamodel.Annotation.Mark
import Metamodel.Annotation.TagComment
import Metamodel.Proofs.Decimal.Text
import Metamodel.Proofs.Decimal.Whole
import Metamodel.Proofs.Text.Blank
import Metamodel.Proofs.Text.Collation

/-!
# Tag comments that are read back

A value in quotes is read as the string between them, and a bare one as what it looks like. Pairs
that are written one behind the other are read as they are written (`values?_written`): a key is
looked for at the start of a pair only, since a pair is read to its end and what separates it from
the next cannot start a key. A text in quotes that has no key is cut at its first blank and then
read as a bare word, so that it is read as itself only when it is one word that does not look like
anything else (`values?_quoted_iff`).
-/

namespace Metamodel.TagComment

open Decimal (Binary64 Numeral significandEnd)

/-! ## Bare words -/

/-- A plain numeral is read as the number that it stands for. -/
theorem bareNumber?_of_isPlain {cs : List Char} (h : Numeral.IsPlain cs) :
    bareNumber? cs = (Numeral.read? cs).map (·.value) := by
  obtain ⟨negative, ds, fs, -, hds, hfs, rfl⟩ := h
  have hdigit {c : Char} (h : c.isDigit = true) :
      (c.isDigit || c == '-' || c == '.') = true := by
    rw [h, Bool.true_or, Bool.true_or]
  refine if_pos (List.all_eq_true.2 fun c hc => ?_)
  rw [List.mem_append, List.mem_append] at hc
  obtain hc | hc | hc := hc
  · cases negative
    · cases hc
    · rw [List.mem_singleton.1 hc]
      rfl
  · exact hdigit (hds c hc)
  · obtain rfl | hc := Numeral.mem_fractionText hc
    · rfl
    · exact hdigit (hfs c hc)

theorem bareNumber?_isSome_iff {cs : List Char} :
    (bareNumber? cs).isSome ↔ Numeral.IsPlain cs := by
  constructor
  · intro h
    unfold bareNumber? at h
    split at h
    · rename_i hall
      rw [Option.isSome_map] at h
      refine (Numeral.read?_isSome_iff fun c hc => ?_).1 h
      have := List.all_eq_true.1 hall c hc
      constructor <;> rintro rfl <;> exact absurd this (by decide)
    · cases h
  · intro h
    rw [bareNumber?_of_isPlain h, Option.isSome_map]
    obtain ⟨negative, ds, fs, hne, hds, hfs, rfl⟩ := h
    rw [Numeral.read?_plain negative hne hds hfs]
    rfl

theorem bareValue_of_bareNumber? {cs : List Char} {x : Binary64} (h : bareNumber? cs = some x) :
    bareValue cs = .number x := by
  have htrue : cs ≠ "true".toList := by
    rintro rfl
    cases h
  have hfalse : cs ≠ "false".toList := by
    rintro rfl
    cases h
  rw [bareValue, if_neg htrue, if_neg hfalse, h]

/-- A word without quotes is a string unless it looks like a truth value or a number. -/
theorem bareValue_eq_string_iff {cs : List Char} {s : String} :
    bareValue cs = .string s ↔
      s.toList = cs ∧ cs ≠ "true".toList ∧ cs ≠ "false".toList ∧ ¬Numeral.IsPlain cs := by
  rw [← bareNumber?_isSome_iff]
  unfold bareValue
  by_cases htrue : cs = "true".toList
  · simp [htrue]
  by_cases hfalse : cs = "false".toList
  · simp [hfalse]
  rw [if_neg htrue, if_neg hfalse]
  cases bareNumber? cs with
  | some x => simp
  | none =>
    simp only [AnnotationValue.string.injEq]
    constructor
    · rintro rfl
      exact ⟨String.toList_ofList, htrue, hfalse, Bool.false_ne_true⟩
    · rintro ⟨rfl, -⟩
      exact String.ofList_toList

theorem bareValue_toString_bool (b : Bool) : bareValue (toString b).toList = .boolean b := by
  cases b <;> rfl

theorem toList_toString_int (n : Int) :
    (toString n).toList = (if decide (n < 0) then ['-'] else []) ++ Nat.toDigits 10 n.natAbs := by
  cases n with
  | ofNat n => exact String.toList_ofList
  | negSucc n =>
    rw [if_pos (decide_eq_true (Int.negSucc_lt_zero n))]
    show ("-" ++ String.ofList (Nat.toDigits 10 (n + 1))).toList = '-' :: Nat.toDigits 10 (n + 1)
    rw [String.toList_append]
    exact congrArg ('-' :: ·) String.toList_ofList

/-- An integer that can be told from its neighbours is read as itself. -/
theorem bareValue_toString_int {n : Int} (h : n.natAbs < significandEnd) :
    bareValue (toString n).toList = .number (Binary64.ofInt n) := by
  have hne : Nat.toDigits 10 n.natAbs ≠ [] := Nat.toDigits_ne_nil
  have htext : (toString n).toList = (if decide (n < 0) then ['-'] else []) ++
      (Nat.toDigits 10 n.natAbs ++ Numeral.fractionText []) := by
    rw [toList_toString_int, Numeral.fractionText, List.append_nil]
  have hplain : Numeral.IsPlain (toString n).toList :=
    ⟨_, _, [], hne, Decimal.isDigit_of_mem_toDigits, by simp, htext⟩
  apply bareValue_of_bareNumber?
  rw [bareNumber?_of_isPlain hplain, htext,
    Numeral.read?_plain _ hne Decimal.isDigit_of_mem_toDigits (by simp), Option.map_some,
    Numeral.value, List.append_nil, Decimal.digitsValue_toDigits]
  exact congrArg some (Binary64.ofDecimal_natAbs h)

/-! ## Values and pairs in front of a text -/

/-- What a value is put in. -/
inductive Quote where
  | single
  | double

namespace Quote

def char : Quote → Char
  | single => '\x27'
  | double => '"'

/-- A text between two quotes. -/
def around (q : Quote) (cs : List Char) : List Char :=
  q.char :: (cs ++ [q.char])

theorem isTrimmed_around (q : Quote) (cs : List Char) : Text.IsTrimmed (q.around cs) where
  head := ⟨q.char, rfl, by cases q <;> decide⟩
  last := ⟨q.char, by rw [around, ← List.cons_append, List.getLast?_concat], by cases q <;> decide⟩

end Quote

/-- Characters of a value without quotes, of which none is a quote. -/
structure IsBare (cs : List Char) : Prop where
  ne_nil : cs ≠ []
  bare : ∀ c ∈ cs, isBareChar c = true
  notMem (q : Quote) : q.char ∉ cs

theorem IsBare.isTrimmed {cs : List Char} (h : IsBare cs) : Text.IsTrimmed cs := by
  refine Text.isTrimmed_of_forall h.ne_nil fun c hc => ?_
  have hbare := h.bare c hc
  rw [isBareChar, Bool.and_eq_true, Bool.not_eq_true'] at hbare
  exact hbare.1

theorem takeValue?_around (q : Quote) {cs : List Char} (h : q.char ∉ cs) (rest : List Char) :
    takeValue? (q.around cs ++ rest) = some (.string (String.ofList cs), rest) := by
  have hquote : ((q.char == '"' || q.char == '\x27') &&
      (cs ++ q.char :: rest).contains q.char) = true := by
    cases q <;> simp [Quote.char]
  have hrun : ∀ c ∈ cs, (c != q.char) = true :=
    fun c hc => bne_iff_ne.2 (ne_of_mem_of_not_mem hc h)
  have hstop : ∀ c ∈ (q.char :: rest).head?, (c != q.char) = false := by simp
  obtain ⟨htake, hdrop⟩ := Text.span_run hrun hstop
  rw [Quote.around, List.cons_append, List.append_assoc, List.singleton_append, takeValue?,
    if_pos hquote, htake, hdrop, List.drop_one, List.tail_cons]

theorem takeValue?_bare {cs rest : List Char} (h : IsBare cs)
    (hrest : ∀ c ∈ rest.head?, isBareChar c = false) :
    takeValue? (cs ++ rest) = some (bareValue cs, rest) := by
  obtain ⟨c, cs', rfl⟩ := List.exists_cons_of_ne_nil h.ne_nil
  have hquote : ¬((c == '"' || c == '\x27') && (cs' ++ rest).contains c) = true := by
    have hdouble : c ≠ '"' := fun hc => h.notMem .double (hc ▸ List.mem_cons_self)
    have hsingle : c ≠ '\x27' := fun hc => h.notMem .single (hc ▸ List.mem_cons_self)
    simp [hdouble, hsingle]
  obtain ⟨htake, hdrop⟩ := Text.span_run h.bare hrest
  rw [List.cons_append, takeValue?, if_neg hquote, takeBare?, ← List.cons_append, htake, hdrop]
  rfl

/-- A name that can stand for a key. -/
structure IsKey (key : String) : Prop where
  chars : ∃ c cs, key.toList = c :: cs ∧ isKeyStart c = true ∧ cs.all isKeyChar = true
  ne_prototype : key ≠ Json.prototypeName

theorem isKey_name : IsKey "name" :=
  ⟨⟨'n', "ame".toList, rfl, rfl, rfl⟩, by decide⟩

theorem isKeyChar_of_isKeyStart {c : Char} (h : isKeyStart c = true) : isKeyChar c = true := by
  rw [isKeyStart, Bool.or_eq_true] at h
  rw [isKeyChar, Char.isAlphanum]
  obtain h | h := h <;> simp [h]

theorem isBlank_of_isKeyChar {c : Char} (h : isKeyChar c = true) : Text.isBlank c = false := by
  refine Text.isBlank_eq_false ?_
  rw [isKeyChar, Bool.or_eq_true, beq_iff_eq] at h
  obtain h | rfl := h
  · change (c.isUpper || c.isLower || c.isDigit) = true at h
    rw [Bool.or_eq_true, Bool.or_eq_true, Text.isUpper_iff, Text.isLower_iff,
      Text.isDigit_iff] at h
    omega
  · decide

theorem IsKey.isTrimmed {key : String} (h : IsKey key) : Text.IsTrimmed key.toList := by
  obtain ⟨c, cs, hkey, hc, hcs⟩ := h.chars
  rw [hkey]
  refine Text.isTrimmed_of_forall (List.cons_ne_nil _ _) fun d hd => isBlank_of_isKeyChar ?_
  obtain rfl | hd := List.mem_cons.1 hd
  · exact isKeyChar_of_isKeyStart hc
  · exact List.all_eq_true.1 hcs d hd

/-- A key with an equals sign is read together with the value behind it. -/
theorem takePair?_append {key : String} (hkey : IsKey key) {text : List Char}
    (htext : Text.IsTrimmed text) {rest : List Char} {v : AnnotationValue}
    (hvalue : takeValue? (text ++ rest) = some (v, rest)) :
    takePair? (key.toList ++ '=' :: (text ++ rest)) = some ((key, v), rest) := by
  obtain ⟨c, cs, hchars, hc, hcs⟩ := hkey.chars
  have hstop : ∀ c ∈ ('=' :: (text ++ rest)).head?, isKeyChar c = false := by simp [isKeyChar]
  obtain ⟨htake, hdrop⟩ := Text.span_run (List.all_eq_true.1 hcs) hstop
  have hname : String.ofList (c :: cs) = key := by rw [← hchars, String.ofList_toList]
  rw [hchars, List.cons_append, takePair?, if_pos hc, htake, hdrop]
  show (takeValue? (Text.trimStart (text ++ rest))).map _ = _
  rw [htext.trimStart_append, hvalue, Option.map_some, hname]

theorem pairs_cons (c : Char) (cs : List Char) :
    pairs (c :: cs) =
      match takePair? (c :: cs) with
      | some r => r.1 :: pairs r.2
      | none => pairs cs := by
  rw [pairs]
  split
  · rename_i r h
    show r.1 :: pairs r.2 = _
    rw [h]
  · rename_i h
    rw [h]

theorem pairs_of_some {cs : List Char} {r : (String × AnnotationValue) × List Char}
    (h : takePair? cs = some r) : pairs cs = r.1 :: pairs r.2 := by
  cases cs with
  | nil => cases h
  | cons c cs => rw [pairs_cons, h]

theorem pairs_of_none {c : Char} {cs : List Char} (h : takePair? (c :: cs) = none) :
    pairs (c :: cs) = pairs cs := by
  rw [pairs_cons, h]

/-- There is no pair without an equals sign. -/
theorem takePair?_of_notMem {cs : List Char} (h : '=' ∉ cs) : takePair? cs = none := by
  unfold takePair?
  split
  · rfl
  split
  · split
    · rename_i c rest _ _ after hafter
      have hsuffix : '=' :: after <:+ c :: rest := by
        rw [← hafter]
        exact (List.dropWhile_suffix _).trans
          ((List.dropWhile_suffix _).trans (List.suffix_cons _ _))
      exact absurd (hsuffix.subset List.mem_cons_self) h
    · rfl
  · rfl

theorem pairs_of_notMem {cs : List Char} (h : '=' ∉ cs) : pairs cs = [] := by
  induction cs with
  | nil => rw [pairs]
  | cons c cs ih =>
    rw [pairs_of_none (takePair?_of_notMem h), ih (List.not_mem_of_not_mem_cons h)]

/-! ## Pairs as they are written -/

theorem isBare_toString_bool (b : Bool) : IsBare (toString b).toList where
  ne_nil := by cases b <;> decide
  bare := by cases b <;> exact List.all_eq_true.1 rfl
  notMem q := by cases b <;> cases q <;> decide

theorem isBare_toString_int (n : Int) : IsBare (toString n).toList := by
  have hchars : ∀ c ∈ (toString n).toList, c = '-' ∨ c.isDigit = true := by
    intro c hc
    rw [toList_toString_int, List.mem_append] at hc
    obtain hc | hc := hc
    · split at hc
      · exact .inl (List.mem_singleton.1 hc)
      · cases hc
    · exact .inr (Decimal.isDigit_of_mem_toDigits c hc)
  refine ⟨?_, fun c hc => ?_, fun q hq => ?_⟩
  · rw [toList_toString_int]
    exact List.append_ne_nil_of_right_ne_nil _ Nat.toDigits_ne_nil
  · obtain rfl | hdigit := hchars c hc
    · decide
    · have hblank : Text.isBlank c = false :=
        isBlank_of_isKeyChar (by simp [isKeyChar, Char.isAlphanum, hdigit])
      have hcomma : c ≠ ',' := by
        rintro rfl
        exact absurd hdigit (by decide)
      simp [isBareChar, hblank, hcomma]
  · obtain hminus | hdigit := hchars _ hq
    · cases q <;> exact absurd hminus (by decide)
    · cases q <;> exact absurd hdigit (by decide)

/-- A value as it is written behind a key. -/
inductive WrittenValue where
  | boolean (value : Bool)
  | integer (value : Int) (small : value.natAbs < 2 ^ 53)
  | string (value : String) (notMem : '"' ∉ value.toList)

namespace WrittenValue

def text : WrittenValue → List Char
  | boolean b => (toString b).toList
  | integer n _ => (toString n).toList
  | string s _ => Quote.double.around s.toList

/-- The value that is meant. -/
def value : WrittenValue → AnnotationValue
  | boolean b => .boolean b
  | integer n _ => .number (Binary64.ofInt n)
  | string s _ => .string s

theorem isTrimmed_text (w : WrittenValue) : Text.IsTrimmed w.text := by
  cases w with
  | boolean b => exact (isBare_toString_bool b).isTrimmed
  | integer n h => exact (isBare_toString_int n).isTrimmed
  | string s h => exact Quote.double.isTrimmed_around s.toList

/-- A value is read up to its end. -/
theorem takeValue?_text (w : WrittenValue) {rest : List Char}
    (hrest : ∀ c ∈ rest.head?, isBareChar c = false) :
    takeValue? (w.text ++ rest) = some (w.value, rest) := by
  cases w with
  | boolean b =>
    rw [text, takeValue?_bare (isBare_toString_bool b) hrest, bareValue_toString_bool, value]
  | integer n h =>
    rw [text, takeValue?_bare (isBare_toString_int n) hrest, bareValue_toString_int h, value]
  | string s h => rw [text, takeValue?_around .double h, String.ofList_toList, value]

end WrittenValue

/-- A pair as it is written. -/
structure WrittenPair where
  key : String
  isKey : IsKey key
  value : WrittenValue

namespace WrittenPair

def text (p : WrittenPair) : List Char :=
  p.key.toList ++ '=' :: p.value.text

/-- The pair that is meant. -/
def entry (p : WrittenPair) : String × AnnotationValue :=
  (p.key, p.value.value)

theorem isTrimmed_text (p : WrittenPair) : Text.IsTrimmed p.text :=
  p.isKey.isTrimmed.append ['='] p.value.isTrimmed_text

theorem takePair?_text (p : WrittenPair) {rest : List Char}
    (hrest : ∀ c ∈ rest.head?, isBareChar c = false) :
    takePair? (p.text ++ rest) = some (p.entry, rest) := by
  rw [text, List.append_assoc, List.cons_append]
  exact takePair?_append p.isKey p.value.isTrimmed_text (p.value.takeValue?_text hrest)

end WrittenPair

/-- What stands between two pairs. -/
inductive Separator where
  | blank
  | comma

def Separator.char : Separator → Char
  | blank => ' '
  | comma => ','

/-- Pairs one behind the other, with what separates each from the one in front of it. -/
def written (first : WrittenPair) : List (Separator × WrittenPair) → List Char
  | [] => first.text
  | (s, p) :: rest => first.text ++ (s.char :: written p rest)

/-- The pairs that are written. -/
def entries (first : WrittenPair) (rest : List (Separator × WrittenPair)) :
    List (String × AnnotationValue) :=
  (first :: rest.map (·.2)).map (·.entry)

theorem isTrimmed_written (first : WrittenPair) (rest : List (Separator × WrittenPair)) :
    Text.IsTrimmed (written first rest) := by
  induction rest generalizing first with
  | nil => exact first.isTrimmed_text
  | cons p rest ih => exact first.isTrimmed_text.append [p.1.char] (ih p.2)

theorem pairs_written (first : WrittenPair) (rest : List (Separator × WrittenPair)) :
    pairs (written first rest) = entries first rest := by
  induction rest generalizing first with
  | nil =>
    have hfirst : takePair? (first.text ++ []) = some (first.entry, []) :=
      first.takePair?_text (by simp)
    rw [List.append_nil] at hfirst
    rw [written, pairs_of_some hfirst, pairs]
    rfl
  | cons p rest ih =>
    obtain ⟨s, p⟩ := p
    have hbare : isBareChar s.char = false := by cases s <;> decide
    have hnone : takePair? (s.char :: written p rest) = none := by cases s <;> rfl
    rw [written, pairs_of_some (first.takePair?_text (by simpa using hbare)), pairs_of_none hnone,
      ih]
    rfl

/-- Setting members of distinct names keeps them all. -/
theorem foldl_setMember {α : Type} {acc ms : List (String × α)}
    (h : ((acc ++ ms).map Prod.fst).Nodup) :
    ms.foldl (fun acc m => Json.setMember acc m.1 m.2) acc = acc ++ ms := by
  induction ms generalizing acc with
  | nil => exact (List.append_nil acc).symm
  | cons m ms ih =>
    have hnew : acc.any (·.1 == m.1) = false := by
      rw [List.map_append, List.map_cons] at h
      refine List.any_eq_false.2 fun p hp hname => ?_
      refine List.disjoint_of_nodup_append h (List.mem_map_of_mem hp) ?_
      rw [eq_of_beq hname]
      exact List.mem_cons_self
    rw [List.foldl_cons, Json.setMember, hnew, if_neg Bool.false_ne_true, ih, List.append_assoc,
      List.singleton_append]
    rwa [List.append_assoc, List.singleton_append]

theorem values?_of_pairs {cs : List Char} (hcs : Text.IsTrimmed cs)
    {found : List (String × AnnotationValue)} (hne : found ≠ []) (hpairs : pairs cs = found)
    (hkeys : ∀ p ∈ found, p.1 ≠ Json.prototypeName) (hnodup : (found.map Prod.fst).Nodup) :
    values? (String.ofList cs) = some found := by
  have hfilter : found.filter (·.1 != Json.prototypeName) = found :=
    List.filter_eq_self.2 fun p hp => bne_iff_ne.2 (hkeys p hp)
  obtain ⟨p, ps, rfl⟩ := List.exists_cons_of_ne_nil hne
  unfold values?
  simp only [String.toList_ofList, hcs.trim_eq, hcs.isEmpty_eq, Bool.false_eq_true, if_false,
    hpairs]
  rw [hfilter, foldl_setMember hnodup, List.nil_append]

/-- Pairs of distinct keys are read as they are written, with each integer as itself. -/
theorem values?_written (first : WrittenPair) (rest : List (Separator × WrittenPair))
    (hnodup : ((entries first rest).map Prod.fst).Nodup) :
    values? (String.ofList (written first rest)) = some (entries first rest) ∧
      ∀ p ∈ first :: rest.map (·.2), ∀ n h, p.value = .integer n h →
        (Binary64.ofInt n).toInt? = some n := by
  constructor
  · refine values?_of_pairs (isTrimmed_written first rest) (List.cons_ne_nil _ _)
      (pairs_written first rest) ?_ hnodup
    intro e he
    obtain ⟨p, -, rfl⟩ := List.mem_map.1 he
    exact p.isKey.ne_prototype
  · intro p _ n h _
    obtain ⟨s, m, hm, hunits⟩ := Binary64.exists_ofInt h
    rw [hm]
    exact Binary64.toInt?_of_units hunits

/-- A pair whose value looks like more pairs. -/
def sampleFirst : WrittenPair where
  key := "name"
  isKey := isKey_name
  value := .string "Bob's, age=9 true" (by decide)

def sampleRest : List (Separator × WrittenPair) :=
  [(.blank,
      { key := "age"
        isKey := ⟨⟨'a', "ge".toList, rfl, rfl, rfl⟩, by decide⟩
        value := .integer (-42) (by decide) }),
    (.comma,
      { key := "_seen"
        isKey := ⟨⟨'_', "seen".toList, rfl, rfl, rfl⟩, by decide⟩
        value := .boolean true })]

theorem values?_sample :
    values? "name=\"Bob's, age=9 true\" age=-42,_seen=true" =
      some [("name", .string "Bob's, age=9 true"), ("age", .number (Binary64.ofInt (-42))),
        ("_seen", .boolean true)] :=
  (values?_written sampleFirst sampleRest (by decide)).1

/-! ## Texts in quotes without a key -/

/-- There are no quotes in the text, and no equals sign. -/
structure IsUnmarked (cs : List Char) : Prop where
  quote (q : Quote) : q.char ∉ cs
  equals : '=' ∉ cs

/-- One word that looks like neither a truth value nor a number. -/
structure IsPlainWord (cs : List Char) : Prop where
  isBlank : ∀ c ∈ cs, Text.isBlank c = false
  ne_true : cs ≠ "true".toList
  ne_false : cs ≠ "false".toList
  notNumeral : ¬Numeral.IsPlain cs

theorem unquote_around (q : Quote) (cs : List Char) : unquote (q.around cs) = cs := by
  cases q <;> simp [unquote, Quote.around, Quote.char]

/-- A quote at the start is dropped even when there is none at the end. -/
theorem unquote_cons (q : Quote) {cs : List Char} (h : ∀ q : Quote, q.char ∉ cs) :
    unquote (q.char :: cs) = cs := by
  have hlast : ∀ c ∈ cs.reverse.head?, (c == '"' || c == '\x27') = false := by
    intro c hc
    have hmem : c ∈ cs := by
      rw [List.head?_reverse] at hc
      exact List.mem_of_getLast? hc
    have hdouble : c ≠ '"' := ne_of_mem_of_not_mem hmem (h .double)
    have hsingle : c ≠ '\x27' := ne_of_mem_of_not_mem hmem (h .single)
    simp [hdouble, hsingle]
  have hstart : (q.char == '"' || q.char == '\x27') = true := by cases q <;> rfl
  unfold unquote
  simp only [hstart, if_true]
  cases hreverse : cs.reverse with
  | nil => exact (List.reverse_eq_nil_iff.1 hreverse).symm
  | cons c rest =>
    rw [hreverse] at hlast
    simp only [hlast c rfl, Bool.false_eq_true, if_false]
    rw [← hreverse, List.reverse_reverse]

theorem firstWord_eq_self_iff {cs : List Char} :
    Text.firstWord cs = cs ↔ ∀ c ∈ cs, Text.isBlank c = false := by
  simp [Text.firstWord]

theorem firstWord_cons (q : Quote) (cs : List Char) :
    Text.firstWord (q.char :: cs) = q.char :: Text.firstWord cs := by
  cases q <;> rfl

/-- The quotes are dropped from the first word, whether it is all of the text or not. -/
theorem unquote_firstWord_around (q : Quote) {cs : List Char} (h : ∀ q : Quote, q.char ∉ cs) :
    unquote (Text.firstWord (q.around cs)) = Text.firstWord cs := by
  rw [Quote.around, firstWord_cons, Text.firstWord, List.takeWhile_append]
  split
  · rename_i hlength
    have hword : Text.firstWord cs = cs := (List.takeWhile_prefix _).eq_of_length hlength
    have hend : [q.char].takeWhile (fun c => !Text.isBlank c) = [q.char] := by cases q <;> rfl
    rw [hend, hword]
    exact unquote_around q cs
  · exact unquote_cons q fun q hq => h q ((List.takeWhile_sublist _).subset hq)

/-- The name that a mark with the comment gives. -/
def nameGiven? (m : Mark) (comment : String) : Option String :=
  { m with values := (values? comment).getD [] }.givenName?

theorem values?_around (q : Quote) {cs : List Char} (h : IsUnmarked cs) :
    values? (String.ofList (q.around cs)) = some [("value", bareValue (Text.firstWord cs))] := by
  have hequals : '=' ∉ q.around cs := by
    have hq : '=' ≠ q.char := by cases q <;> decide
    simp [Quote.around, h.equals, hq]
  unfold values?
  simp only [String.toList_ofList, (q.isTrimmed_around cs).trim_eq,
    (q.isTrimmed_around cs).isEmpty_eq, Bool.false_eq_true, if_false, pairs_of_notMem hequals,
    unquote_firstWord_around q h.quote]

theorem values?_key_around (q : Quote) {key : String} (hkey : IsKey key) {cs : List Char}
    (h : q.char ∉ cs) :
    values? (String.ofList (key.toList ++ '=' :: q.around cs)) =
      some [(key, .string (String.ofList cs))] := by
  have htrimmed := hkey.isTrimmed.append ['='] (q.isTrimmed_around cs)
  have hpair := takePair?_append hkey (q.isTrimmed_around cs) (takeValue?_around q h [])
  rw [List.append_nil] at hpair
  refine values?_of_pairs htrimmed (List.cons_ne_nil _ _) ?_ ?_ (List.nodup_singleton _)
  · exact (pairs_of_some hpair).trans (by rw [pairs])
  · exact fun p hp => List.mem_singleton.1 hp ▸ hkey.ne_prototype

theorem isPlainWord_iff {s : String} :
    IsPlainWord s.toList ↔ bareValue (Text.firstWord s.toList) = .string s := by
  rw [bareValue_eq_string_iff]
  constructor
  · intro h
    have hword := firstWord_eq_self_iff.2 h.isBlank
    rw [hword]
    exact ⟨rfl, h.ne_true, h.ne_false, h.notNumeral⟩
  · rintro ⟨hword, htrue, hfalse, hnumeral⟩
    rw [← hword] at htrue hfalse hnumeral
    exact ⟨firstWord_eq_self_iff.1 hword.symm, htrue, hfalse, hnumeral⟩

theorem givenName?_string (m : Mark) {key : String} (hkey : key ∈ ["name", "value"]) (s : String) :
    { m with values := [(key, .string s)] }.givenName? =
      if Text.isBlankText s then none else some s := by
  simp only [List.mem_cons, List.not_mem_nil, or_false] at hkey
  obtain rfl | rfl := hkey <;>
    by_cases hs : Text.isBlankText s = true <;>
      simp [Mark.givenName?, Mark.getString?, List.lookup_cons, Option.filter, hs]

theorem givenName?_value_eq_iff (m : Mark) (s : String) :
    { m with values := [("value", bareValue (Text.firstWord s.toList))] }.givenName? =
        { m with values := [("name", .string s)] }.givenName? ↔
      Text.isBlankText s = true ∨ IsPlainWord s.toList := by
  rw [givenName?_string m (by simp), isPlainWord_iff]
  cases hvalue : bareValue (Text.firstWord s.toList) with
  | string t =>
    obtain ⟨ht, -⟩ := bareValue_eq_string_iff.1 hvalue
    rw [givenName?_string m (by simp), AnnotationValue.string.injEq]
    by_cases hs : Text.isBlankText s = true
    · have hblank : Text.isBlankText t = true := by
        rw [Text.isBlankText, ht]
        exact List.all_eq_true.2 fun c hc =>
          List.all_eq_true.1 hs c ((List.takeWhile_sublist _).subset hc)
      simp [hs, hblank]
    · by_cases hblank : Text.isBlankText t = true
      · have hne : t ≠ s := by
          rintro rfl
          exact hs hblank
        simp [hs, hblank, hne]
      · simp [hs, hblank]
  | _ =>
    by_cases hs : Text.isBlankText s = true <;>
      simp [Mark.givenName?, Mark.getString?, List.lookup_cons, Option.filter, hs]

/-- A text in quotes without a key is read as itself exactly if it is one plain word, and gives the
name that it gives behind a key exactly if it is one or is blank. -/
theorem values?_quoted_iff (q : Quote) {s : String} (h : IsUnmarked s.toList) :
    let quoted := String.ofList (q.around s.toList)
    let named := String.ofList ("name".toList ++ '=' :: q.around s.toList)
    values? quoted = some [("value", bareValue (Text.firstWord s.toList))] ∧
      (values? quoted = some [("value", .string s)] ↔ IsPlainWord s.toList) ∧
      values? named = some [("name", .string s)] ∧
      ∀ m, nameGiven? m quoted = nameGiven? m named ↔
        Text.isBlankText s = true ∨ IsPlainWord s.toList := by
  intro quoted named
  have hquoted := values?_around q h
  have hnamed : values? named = some [("name", .string s)] := by
    have hread := values?_key_around q isKey_name (h.quote q)
    rwa [String.ofList_toList] at hread
  refine ⟨hquoted, ?_, hnamed, fun m => ?_⟩
  · rw [isPlainWord_iff, hquoted]
    simp
  · rw [nameGiven?, nameGiven?, hquoted, hnamed]
    exact givenName?_value_eq_iff m s

theorem values?_quoted_groups : values? "\"Groups\"" = some [("value", .string "Groups")] := by
  have hunmarked : IsUnmarked "Groups".toList := ⟨fun q => by cases q <;> decide, by decide⟩
  have hword := firstWord_eq_self_iff.1 (rfl : Text.firstWord "Groups".toList = _)
  refine (values?_quoted_iff .double hunmarked).2.1.2 ⟨hword, by decide, by decide, ?_⟩
  rw [← bareNumber?_isSome_iff]
  decide

/-- Of two words in quotes only the first is read. -/
theorem values?_quoted_words_ne :
    values? "\"Contact book\"" ≠ some [("value", .string "Contact book")] := by
  have hunmarked : IsUnmarked "Contact book".toList := ⟨fun q => by cases q <;> decide, by decide⟩
  have hvalue : bareValue (Text.firstWord "Contact book".toList) = .string "Contact" := rfl
  intro h
  have hread := (values?_around .double hunmarked).symm.trans h
  rw [hvalue] at hread
  simp at hread

end Metamodel.TagComment
