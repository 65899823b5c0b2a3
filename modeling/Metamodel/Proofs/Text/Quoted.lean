import Mathlib.Data.List.Basic
import Metamodel.Proofs.Text.Units
import Metamodel.Source.Lexer
import Metamodel.Source.Literal
import Metamodel.Text.Quoted

/-!
# String literals of texts

What is a string literal, and of which text, is said for sequences of 16-bit units (`IsLiteral`). To
quote a sequence is to escape its backslashes and then its quotes (`quoteUnits`), which gives a
literal of the sequence unless it holds a line break (`isLiteral_quoteUnits_iff`). In a source text
such a literal is one token, whatever follows (`tokensFrom_quote_iff`). Between quotes as it is, a text
is a literal of itself exactly when nothing in it has to be escaped (`isLiteral_self_iff`).
-/

namespace Metamodel.Text

/-! ## Literals -/

/-- The 16-bit units of a code point. -/
def codeUnits (n : Nat) : List Nat :=
  if n < 0x10000 then [n]
  else [0xD800 + (n - 0x10000) / 0x400, 0xDC00 + (n - 0x10000) % 0x400]

/-- The units that stand for something else, or for nothing, behind a backslash. -/
def escapeUnits : List Nat :=
  "bfnrtvxu0123456789".toList.map Char.toNat ++ [0x0A, 0x0D, 0x2028, 0x2029]

/-- The units of an escape behind its backslash, and those that it stands for. -/
inductive Escape : List Nat → List Nat → Prop
  | letter {c d : Char} (h : (c, d) ∈ Source.letterEscapes) (hc : c ≠ '0') :
    Escape [c.toNat] [d.toNat]
  | byte {a b : Char} {u : Nat} (h : Json.hexUnit? '0' '0' a b = some u) :
    Escape ['x'.toNat, a.toNat, b.toNat] [u]
  | unit {a b c d : Char} {u : Nat} (h : Json.hexUnit? a b c d = some u) :
    Escape ['u'.toNat, a.toNat, b.toNat, c.toNat, d.toNat] [u]
  | codePoint {ds : List Char} (hne : ds ≠ []) (hds : ∀ d ∈ ds, (Decimal.digitValue? d).isSome)
    (hlt : Decimal.digitsValue 16 ds < 0x110000) :
    Escape ('u'.toNat :: '\x7b'.toNat :: ds.map Char.toNat ++ ['\x7d'.toNat])
      (codeUnits (Decimal.digitsValue 16 ds))
  | lineEnd {us : List Nat} (h : us ∈ [[0x0A], [0x0D], [0x0D, 0x0A], [0x2028], [0x2029]]) :
    Escape us []
  | itself {u : Nat} (h : u ∉ escapeUnits) : Escape [u] [u]

/-- The units of a literal behind its opening quote, and the text that they stand for. -/
inductive LiteralBody : List Nat → List Nat → Prop
  | close : LiteralBody [0x27] []
  | unit {u : Nat} {cs ts : List Nat} (h : u ∉ [0x27, 0x5C, 0x0A, 0x0D]) (hcs : LiteralBody cs ts) :
    LiteralBody (u :: cs) (u :: ts)
  | escape {us vs cs ts : List Nat} (h : Escape us vs) (hcs : LiteralBody cs ts) :
    LiteralBody (0x5C :: (us ++ cs)) (vs ++ ts)
  /-- the digits behind a zero would be read with it -/
  | zero {cs ts : List Nat} (h : ∀ u ∈ cs.head?, u < 0x30 ∨ 0x39 < u) (hcs : LiteralBody cs ts) :
    LiteralBody (0x5C :: 0x30 :: cs) (0 :: ts)

/-- The units are one well-formed literal in single quotes, which stands for the text. -/
inductive IsLiteral : List Nat → List Nat → Prop
  | mk {cs ts : List Nat} (h : LiteralBody cs ts) : IsLiteral (0x27 :: cs) ts

/-- The text holds no line feed and no carriage return. -/
structure OneLine (us : List Nat) : Prop where
  lineFeed : 0x0A ∉ us
  carriageReturn : 0x0D ∉ us

instance (us : List Nat) : Decidable (OneLine us) :=
  decidable_of_iff (0x0A ∉ us ∧ 0x0D ∉ us) ⟨fun h => ⟨h.1, h.2⟩, fun h => ⟨h.1, h.2⟩⟩

/-! ## Quoting -/

/-- Puts a backslash in front of each occurrence of a unit. -/
def escapeAll (u : Nat) (us : List Nat) : List Nat :=
  us.flatMap fun v => if v = u then [0x5C, v] else [v]

/-- Quotes a text: its backslashes are escaped first, and then its quotes. -/
def quoteUnits (us : List Nat) : List Nat :=
  0x27 :: escapeAll 0x27 (escapeAll 0x5C us) ++ [0x27]

/-- A unit as it stands in a literal. -/
def quoteUnit (u : Nat) : List Nat :=
  if u = 0x5C ∨ u = 0x27 then [0x5C, u] else [u]

/-- The backslashes that the first pass puts in are left alone by the second. -/
theorem quoteUnits_eq (us : List Nat) : quoteUnits us = 0x27 :: us.flatMap quoteUnit ++ [0x27] := by
  have hpasses : escapeAll 0x27 (escapeAll 0x5C us) = us.flatMap quoteUnit := by
    unfold escapeAll
    rw [List.flatMap_assoc]
    refine List.flatMap_congr fun u _ => ?_
    by_cases hslash : u = 0x5C
    · simp [quoteUnit, hslash]
    · by_cases hquote : u = 0x27 <;> simp [quoteUnit, hslash, hquote]
  rw [quoteUnits, hpasses]

theorem units_quoteChar (c : Char) : units (quoteChar c) = (charUnits c).flatMap quoteUnit := by
  by_cases hc : c = '\\' ∨ c = '\x27'
  · obtain rfl | rfl := hc <;> rfl
  · obtain ⟨hslash, hquote⟩ := not_or.1 hc
    rw [← Char.toNat_inj] at hslash hquote
    change c.toNat ≠ 0x5C at hslash
    change c.toNat ≠ 0x27 at hquote
    have hplain : ∀ u ∈ charUnits c, quoteUnit u = [u] := by
      intro u hu
      refine if_neg ?_
      unfold charUnits at hu
      split at hu <;> simp at hu <;> omega
    rw [quoteChar, if_neg hc, List.flatMap_congr hplain, List.flatMap_singleton']
    exact List.append_nil _

theorem units_flatMap_quoteChar (cs : List Char) :
    units (cs.flatMap quoteChar) = (units cs).flatMap quoteUnit := by
  induction cs with
  | nil => rfl
  | cons c cs ih =>
    rw [List.flatMap_cons, units_append, units_quoteChar, ih, units_cons, List.flatMap_append]

/-- A string is quoted as its units are. -/
theorem units_quote (s : String) : units (quote s).toList = quoteUnits (units s.toList) := by
  rw [quote, String.toList_ofList, quoteChars, units_append, units_cons, units_flatMap_quoteChar,
    quoteUnits_eq]
  rfl

/-! ## Quoted texts are literals -/

/-- An escape begins with a unit that is no mark. -/
theorem Escape.eq_cons {us vs : List Nat} (h : Escape us vs) :
    ∃ u rest, us = u :: rest ∧ (u ∈ escapeUnits ∨ rest = [] ∧ vs = [u]) := by
  cases h with
  | letter h hc =>
    refine ⟨_, _, rfl, .inl ?_⟩
    have hall : ∀ p ∈ Source.letterEscapes, p.1.toNat ∈ escapeUnits := by decide
    exact hall _ h
  | byte h => exact ⟨_, _, rfl, .inl (by decide)⟩
  | unit h => exact ⟨_, _, rfl, .inl (by decide)⟩
  | codePoint hne hds hlt => exact ⟨_, _, rfl, .inl (by decide)⟩
  | lineEnd h =>
    have hall : ∀ us ∈ [[0x0A], [0x0D], [0x0D, 0x0A], [0x2028], [0x2029]],
        us = us.headI :: us.tail ∧ us.headI ∈ escapeUnits := by decide
    exact ⟨_, _, (hall _ h).1, .inl (hall _ h).2⟩
  | itself h => exact ⟨_, _, rfl, .inr ⟨rfl, rfl⟩⟩

/-- A mark behind a backslash is an escape of its own. -/
theorem escape_mark {u : Nat} (hu : u = 0x5C ∨ u = 0x27) : Escape [u] [u] := by
  obtain rfl | rfl := hu <;> exact .itself (by decide)

theorem literalBody_mark_iff {u : Nat} (hu : u = 0x5C ∨ u = 0x27) {cs ts : List Nat} :
    LiteralBody (0x5C :: u :: cs) ts ↔ ∃ rest, ts = u :: rest ∧ LiteralBody cs rest := by
  constructor
  · intro h
    generalize hbody : 0x5C :: u :: cs = body at h
    cases h with
    | close => cases hbody
    | unit hplain hcs => exact absurd (List.cons.inj hbody).1 (by rintro rfl; simp at hplain)
    | @escape us vs cs' ts hescape hcs =>
      obtain ⟨v, rest, rfl, hv⟩ := hescape.eq_cons
      obtain ⟨rfl, rfl⟩ := List.cons.inj (List.cons.inj hbody).2
      obtain hv | ⟨rfl, rfl⟩ := hv
      · exact absurd hv (by obtain rfl | rfl := hu <;> decide)
      · exact ⟨ts, rfl, hcs⟩
    | zero hdigit hcs =>
      have : u = 0x30 := (List.cons.inj (List.cons.inj hbody).2).1
      omega
  · rintro ⟨rest, rfl, hcs⟩
    exact .escape (escape_mark hu) hcs

theorem literalBody_unit_iff {u : Nat} (hu : ¬(u = 0x5C ∨ u = 0x27)) {cs ts : List Nat} :
    LiteralBody (u :: cs) ts ↔
      (u ≠ 0x0A ∧ u ≠ 0x0D) ∧ ∃ rest, ts = u :: rest ∧ LiteralBody cs rest := by
  constructor
  · intro h
    cases h with
    | close => simp at hu
    | unit hplain hcs =>
      simp only [List.mem_cons, List.not_mem_nil, or_false, not_or] at hplain
      exact ⟨⟨hplain.2.2.1, hplain.2.2.2⟩, _, rfl, hcs⟩
    | escape hescape hcs => simp at hu
    | zero hdigit hcs => simp at hu
  · rintro ⟨hbreak, rest, rfl, hcs⟩
    exact .unit (by simp; omega) hcs

/-- A quoted unit is read as the unit, which is no line break. -/
theorem literalBody_quoteUnit_iff {u : Nat} {cs ts : List Nat} :
    LiteralBody (quoteUnit u ++ cs) ts ↔
      (u ≠ 0x0A ∧ u ≠ 0x0D) ∧ ∃ rest, ts = u :: rest ∧ LiteralBody cs rest := by
  unfold quoteUnit
  by_cases hu : u = 0x5C ∨ u = 0x27
  · have hbreak : u ≠ 0x0A ∧ u ≠ 0x0D := by omega
    rw [if_pos hu]
    exact (literalBody_mark_iff hu).trans (and_iff_right hbreak).symm
  · rw [if_neg hu]
    exact literalBody_unit_iff hu

theorem oneLine_cons_iff {u : Nat} {us : List Nat} :
    OneLine (u :: us) ↔ (u ≠ 0x0A ∧ u ≠ 0x0D) ∧ OneLine us := by
  constructor
  · rintro ⟨hfeed, hreturn⟩
    rw [List.mem_cons, not_or] at hfeed hreturn
    exact ⟨⟨Ne.symm hfeed.1, Ne.symm hreturn.1⟩, hfeed.2, hreturn.2⟩
  · rintro ⟨⟨hfeed, hreturn⟩, hus⟩
    exact ⟨List.not_mem_cons_of_ne_of_not_mem (Ne.symm hfeed) hus.lineFeed,
      List.not_mem_cons_of_ne_of_not_mem (Ne.symm hreturn) hus.carriageReturn⟩

theorem literalBody_quote_iff {us ts : List Nat} :
    LiteralBody (us.flatMap quoteUnit ++ [0x27]) ts ↔ OneLine us ∧ ts = us := by
  induction us generalizing ts with
  | nil =>
    constructor
    · intro h
      cases h with
      | close => exact ⟨by decide, rfl⟩
      | unit hplain hcs => simp at hplain
    · rintro ⟨-, rfl⟩
      exact .close
  | cons u us ih =>
    rw [List.flatMap_cons, List.append_assoc, literalBody_quoteUnit_iff, oneLine_cons_iff]
    constructor
    · rintro ⟨hbreak, rest, rfl, hrest⟩
      obtain ⟨hus, rfl⟩ := ih.1 hrest
      exact ⟨⟨hbreak, hus⟩, rfl⟩
    · rintro ⟨⟨hbreak, hus⟩, rfl⟩
      exact ⟨hbreak, us, rfl, ih.2 ⟨hus, rfl⟩⟩

/-- What is quoted is a literal of the text exactly if it holds no line break, and of no other. -/
theorem isLiteral_quoteUnits_iff {us ts : List Nat} :
    IsLiteral (quoteUnits us) ts ↔ OneLine us ∧ ts = us := by
  rw [quoteUnits_eq]
  constructor
  · rintro ⟨h⟩
    exact literalBody_quote_iff.1 h
  · exact fun h => .mk (literalBody_quote_iff.2 h)

/-- A character below the surrogates is told by its unit. -/
theorem toNat_mem_units_iff {c : Char} (hc : c.toNat < 0xD800) {cs : List Char} :
    c.toNat ∈ units cs ↔ c ∈ cs := by
  constructor
  · intro h
    obtain ⟨d, hd, hunit⟩ := List.mem_flatMap.1 h
    unfold charUnits at hunit
    split at hunit
    · rwa [Char.toNat_inj.1 (List.mem_singleton.1 hunit)]
    · simp only [List.mem_cons, List.not_mem_nil, or_false] at hunit
      omega
  · intro h
    refine List.mem_flatMap.2 ⟨c, h, ?_⟩
    rw [charUnits, if_pos (by omega)]
    exact List.mem_singleton_self _

theorem oneLine_units_iff {cs : List Char} : OneLine (units cs) ↔ '\n' ∉ cs ∧ '\r' ∉ cs := by
  have hfeed : 0x0A ∈ units cs ↔ '\n' ∈ cs := toNat_mem_units_iff (c := '\n') (by decide)
  have hreturn : 0x0D ∈ units cs ↔ '\r' ∈ cs := toNat_mem_units_iff (c := '\r') (by decide)
  exact ⟨fun h => ⟨fun hc => h.lineFeed (hfeed.2 hc), fun hc => h.carriageReturn (hreturn.2 hc)⟩,
    fun h => ⟨fun hu => h.1 (hfeed.1 hu), fun hu => h.2 (hreturn.1 hu)⟩⟩

/-! ## Texts between quotes -/

/-- The characters that do not stand for themselves between quotes. -/
def quoteMarks : List Char := ['\x27', '\\', '\n', '\r']

/-- The text has none of these characters, so that nothing in it would have to be escaped. -/
def IsVerbatim (cs : List Char) : Prop :=
  ∀ c ∈ quoteMarks, c ∉ cs

instance (cs : List Char) : Decidable (IsVerbatim cs) :=
  List.decidableBAll (· ∉ cs) quoteMarks

theorem Escape.length_le {us vs : List Nat} (h : Escape us vs) : vs.length ≤ us.length := by
  cases h with
  | letter => exact Nat.le_refl 1
  | byte => simp
  | unit => simp
  | codePoint =>
    unfold codeUnits
    split <;> simp
  | lineEnd => exact Nat.zero_le _
  | itself => exact Nat.le_refl 1

theorem LiteralBody.length_lt {cs ts : List Nat} (h : LiteralBody cs ts) :
    ts.length < cs.length := by
  induction h with
  | close => exact Nat.zero_lt_one
  | unit _ _ ih => exact Nat.succ_lt_succ ih
  | escape hescape _ ih =>
    have hlength := hescape.length_le
    simp only [List.length_cons, List.length_append]
    omega
  | zero _ _ ih =>
    simp only [List.length_cons]
    omega

/-- A text between quotes is a literal of itself exactly if it needs no escapes and no line ends in it:
an escape is longer than what it stands for. -/
theorem literalBody_self_iff {us : List Nat} :
    LiteralBody (us ++ [0x27]) us ↔ ∀ u ∈ us, u ∉ [0x27, 0x5C, 0x0A, 0x0D] := by
  induction us with
  | nil => exact ⟨fun _ _ h => absurd h List.not_mem_nil, fun _ => .close⟩
  | cons u us ih =>
    rw [List.forall_mem_cons, ← ih]
    refine ⟨fun h => ?_, fun h => .unit h.1 h.2⟩
    generalize htext : u :: us = text at h
    generalize hbody : text ++ [0x27] = body at h
    cases h with
    | close => cases htext
    | unit hplain hcs =>
      obtain ⟨rfl, rfl⟩ := List.cons.inj htext
      obtain ⟨-, rfl⟩ := List.cons.inj hbody
      exact ⟨hplain, hcs⟩
    | escape hescape hcs =>
      have hlengths := congrArg List.length hbody
      have hshorter := hescape.length_le
      have hrest := hcs.length_lt
      simp only [List.length_cons, List.length_append, List.length_nil] at hlengths
      omega
    | zero _ hcs =>
      have hrest := hcs.length_lt
      have hlengths := congrArg List.length hbody
      simp only [List.length_cons, List.length_append, List.length_nil] at hlengths
      omega

theorem isLiteral_self_iff {cs : List Char} :
    IsLiteral (units ('\x27' :: cs ++ ['\x27'])) (units cs) ↔ IsVerbatim cs := by
  have hunits : units ('\x27' :: cs ++ ['\x27']) = 0x27 :: (units cs ++ [0x27]) := by
    rw [List.cons_append, units_cons, units_append]
    rfl
  have hmarks : ∀ c ∈ quoteMarks, (c.toNat ∈ units cs ↔ c ∈ cs) := by
    have hsmall : quoteMarks.all (·.toNat < 0xD800) = true := by decide
    exact fun c hc => toNat_mem_units_iff (of_decide_eq_true (List.all_eq_true.1 hsmall c hc))
  have hplain : (∀ u ∈ units cs, u ∉ [0x27, 0x5C, 0x0A, 0x0D]) ↔
      ∀ c ∈ quoteMarks, c.toNat ∉ units cs := by
    have htoNat : quoteMarks.map Char.toNat = [0x27, 0x5C, 0x0A, 0x0D] := rfl
    rw [← htoNat]
    simp only [List.mem_map, not_exists, not_and]
    exact ⟨fun h c hc hmem => h _ hmem c hc rfl, fun h u hu c hc heq => h c hc (heq ▸ hu)⟩
  rw [hunits]
  constructor
  · rintro ⟨h⟩ c hc
    rw [← hmarks c hc]
    exact hplain.1 (literalBody_self_iff.1 h) c hc
  · intro h
    refine .mk (literalBody_self_iff.2 (hplain.2 fun c hc => ?_))
    rw [hmarks c hc]
    exact h c hc

end Metamodel.Text

namespace Metamodel.Source

open Text (quote quoteChar quoteChars)

/-! ## Literals as tokens -/

theorem quotedLength_quoteChar (c : Char) (rest : List Char) :
    quotedLength '\x27' (quoteChar c ++ rest) =
      if c = '\n' ∨ c = '\r' then 0 else (quoteChar c).length + quotedLength '\x27' rest := by
  by_cases hc : c = '\\' ∨ c = '\x27'
  · have hbreak : ¬(c = '\n' ∨ c = '\r') := by obtain rfl | rfl := hc <;> decide
    rw [if_neg hbreak, quoteChar, if_pos hc]
    rfl
  · rw [quoteChar, if_neg hc]
    rw [not_or] at hc
    show quotedLength '\x27' (c :: rest) = _
    rw [quotedLength.eq_3 _ _ _ fun _ _ h => absurd h hc.1]
    simp [hc.2]

/-- The lexer passes over a quoted part that holds no line break. -/
theorem quotedLength_append {cs : List Char} (hcs : '\n' ∉ cs ∧ '\r' ∉ cs) (rest : List Char) :
    quotedLength '\x27' (cs.flatMap quoteChar ++ rest) =
      (cs.flatMap quoteChar).length + quotedLength '\x27' rest := by
  induction cs with
  | nil => exact (Nat.zero_add _).symm
  | cons c cs ih =>
    simp only [List.mem_cons, not_or] at hcs
    have hbreak : ¬(c = '\n' ∨ c = '\r') := not_or.2 ⟨Ne.symm hcs.1.1, Ne.symm hcs.2.1⟩
    rw [List.flatMap_cons, List.append_assoc, quotedLength_quoteChar, if_neg hbreak,
      ih ⟨hcs.1.2, hcs.2.2⟩, List.length_append, Nat.add_assoc]

/-- It ends early at a line break. -/
theorem quotedLength_lt {cs : List Char} (hcs : ¬('\n' ∉ cs ∧ '\r' ∉ cs)) (rest : List Char) :
    quotedLength '\x27' (cs.flatMap quoteChar ++ rest) < (cs.flatMap quoteChar).length := by
  induction cs with
  | nil => simp at hcs
  | cons c cs ih =>
    rw [List.flatMap_cons, List.append_assoc, quotedLength_quoteChar, List.length_append]
    by_cases hbreak : c = '\n' ∨ c = '\r'
    · have hplain : quoteChar c = [c] := by obtain rfl | rfl := hbreak <;> rfl
      rw [if_pos hbreak, hplain]
      exact Nat.lt_add_right _ Nat.one_pos
    · have hrest : ¬('\n' ∉ cs ∧ '\r' ∉ cs) := by
        rw [not_or] at hbreak
        simpa [Ne.symm hbreak.1, Ne.symm hbreak.2] using hcs
      rw [if_neg hbreak]
      exact Nat.add_lt_add_left (ih hrest) _

theorem unescape_quoteChar {c : Char} (hc : c ≠ '\r') (rest : List Char) :
    unescape (quoteChar c ++ rest) = c :: unescape rest := by
  by_cases hmark : c = '\\' ∨ c = '\x27'
  · have hself : escaped (c :: rest) = (some c, 1) := by
      obtain rfl | rfl := hmark <;> simp [escaped, letterEscapes, List.lookup_cons]
    rw [quoteChar, if_pos hmark]
    show unescape ('\\' :: c :: rest) = _
    rw [unescape, hself]
    rfl
  · rw [quoteChar, if_neg hmark]
    rw [not_or] at hmark
    show unescape (c :: rest) = _
    rw [unescape.eq_4 _ _ hmark.1 fun _ h => absurd h hc]

theorem unescape_flatMap_quoteChar {cs : List Char} (hcs : '\r' ∉ cs) :
    unescape (cs.flatMap quoteChar) = cs := by
  induction cs with
  | nil => rw [List.flatMap_nil, unescape]
  | cons c cs ih =>
    rw [List.mem_cons, not_or] at hcs
    rw [List.flatMap_cons, unescape_quoteChar (Ne.symm hcs.1), ih hcs.2]

/-- The value of a quoted string in a source text. -/
theorem textValue_quote {s : String} (hs : '\r' ∉ s.toList) : textValue (quote s) = s := by
  rw [textValue, quote, String.toList_ofList, quoteChars]
  show String.ofList (unescape (s.toList.flatMap quoteChar ++ ['\x27']).dropLast) = s
  rw [List.dropLast_concat, unescape_flatMap_quoteChar hs, String.ofList_toList]

/-- The token of a text that begins with a quote. -/
def quotedToken (previous : Option Token) (start : Position) (text : List Char) : Token :=
  ⟨.string, String.ofList text, "", start, start, previous.isNone⟩

theorem tokensFrom_quoted (previous : Option Token) (start : Position) (rest : List Char) :
    tokensFrom previous start .blanks ('\x27' :: rest) =
      let text := '\x27' :: rest.take (quotedLength '\x27' rest)
      quotedToken previous start text ::
        tokensFrom (some (quotedToken previous start text)) (start.advance text) .blanks
          (rest.drop (quotedLength '\x27' rest)) := by
  have hgap : gapLength .blanks ('\x27' :: rest) = 0 := rfl
  rw [tokensFrom]
  split
  · rename_i h
    rw [hgap] at h
    cases h
  · rename_i c rest' h
    rw [hgap] at h
    cases h
    rw [hgap]
    rfl

/-- A quoted string without line breaks, and no other one, is read as one token, whatever stands
behind it. -/
theorem tokensFrom_quote_iff (s : String) (previous : Option Token) (start : Position)
    (rest : List Char) :
    tokensFrom previous start .blanks ((quote s).toList ++ rest) =
        quotedToken previous start (quote s).toList ::
          tokensFrom (some (quotedToken previous start (quote s).toList))
            (start.advance (quote s).toList) .blanks rest ↔
      '\n' ∉ s.toList ∧ '\r' ∉ s.toList := by
  have hquote : (quote s).toList = '\x27' :: (s.toList.flatMap quoteChar ++ ['\x27']) := by
    rw [quote, String.toList_ofList, quoteChars, List.cons_append]
  rw [hquote, List.cons_append, tokensFrom_quoted]
  constructor
  · intro h
    by_contra hs
    have hlt := quotedLength_lt hs (['\x27'] ++ rest)
    rw [← List.append_assoc] at hlt
    have htext := congrArg (·.text.toList) (List.cons.inj h).1
    simp only [quotedToken, String.toList_ofList] at htext
    have hlength := congrArg List.length htext
    simp only [List.length_cons, List.length_take, List.length_append] at hlength
    omega
  · intro hs
    have hlength : quotedLength '\x27' (s.toList.flatMap quoteChar ++ ['\x27'] ++ rest) =
        (s.toList.flatMap quoteChar ++ ['\x27']).length := by
      rw [List.append_assoc, quotedLength_append hs, List.length_append]
      rfl
    rw [hlength, List.take_left, List.drop_left]

/-- To quote a string is to quote its units. What that gives is a literal of the units, and of no
others, exactly if they hold no line feed and no carriage return; and exactly then a quoted string
is read in a source text, whatever follows it, as one token with the string as its value. -/
theorem quote_literal_iff (us : List Nat) (s : String) :
    (∀ ts, Text.IsLiteral (Text.quoteUnits us) ts ↔ Text.OneLine us ∧ ts = us) ∧
    Text.units (quote s).toList = Text.quoteUnits (Text.units s.toList) ∧
    ∀ previous start rest,
      tokensFrom previous start .blanks ((quote s).toList ++ rest) =
          quotedToken previous start (quote s).toList ::
            tokensFrom (some (quotedToken previous start (quote s).toList))
              (start.advance (quote s).toList) .blanks rest ∧
        textValue (quote s) = s ↔
      Text.OneLine (Text.units s.toList) := by
  refine ⟨fun ts => Text.isLiteral_quoteUnits_iff, Text.units_quote s, ?_⟩
  intro previous start rest
  rw [tokensFrom_quote_iff, Text.oneLine_units_iff]
  exact ⟨fun h => h.1, fun h => ⟨h, textValue_quote h.2⟩⟩

/-- A text of two lines is not quoted as a literal. -/
theorem not_isLiteral_of_lines : ¬∃ ts, Text.IsLiteral (Text.units (quote "a\nb").toList) ts := by
  rintro ⟨ts, h⟩
  rw [Text.units_quote, Text.isLiteral_quoteUnits_iff] at h
  exact absurd h.1 (by decide)

end Metamodel.Source
