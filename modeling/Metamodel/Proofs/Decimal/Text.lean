import Metamodel.Decimal.Text
import Metamodel.Proofs.Decimal.Shortest
import Metamodel.Proofs.Text.Split

/-!
# Texts of numbers

The text of a decimal reads back as the decimal (`Digits.readsAs_text`), whichever of the four
layouts it has. Since the shortest digits tell the magnitude, two finite numbers have one text
exactly when they are equal (`Binary64.text_eq_iff`). Without an exponent just the plain numerals
are read (`Numeral.read?_isSome_iff`).
-/

namespace Metamodel.Decimal

/-- The number that a numeral stands for, but for its sign. -/
def Numeral.size (n : Numeral) : ℚ :=
  digitsValue 10 (n.whole ++ n.fraction) * 10 ^ (n.exponent - n.fraction.length)

/-! ## Sequences of digits -/

theorem digitsValue_eq {ds : List Char} (h : ∀ c ∈ ds, c.isDigit = true) :
    digitsValue 10 ds = Nat.ofDigitChars 10 ds 0 := by
  have (n : Nat) : ds.foldl (fun n c => n * 10 + (digitValue? c).getD 0) n =
      Nat.ofDigitChars 10 ds n := by
    induction ds generalizing n with
    | nil => rfl
    | cons c ds ih =>
      rw [List.forall_mem_cons] at h
      rw [List.foldl_cons, Nat.ofDigitChars_cons, ← ih h.2, digitValue?, if_pos h.1, Nat.mul_comm]
      rfl
  exact this 0

theorem isDigit_of_mem_toDigits {n : Nat} : ∀ c ∈ Nat.toDigits 10 n, c.isDigit = true :=
  fun _ hc => Nat.isDigit_of_mem_toDigits (by decide) (by decide) hc

theorem digitsValue_toDigits (n : Nat) : digitsValue 10 (Nat.toDigits 10 n) = n := by
  rw [digitsValue_eq isDigit_of_mem_toDigits, Nat.ofDigitChars_toDigits (by decide) (by decide)]

theorem isDigit_of_mem_zeros {n : Nat} : ∀ c ∈ List.replicate n '0', c.isDigit = true := by
  intro c hc
  rw [List.eq_of_mem_replicate hc]
  rfl

theorem digitsValue_append_zeros {ds : List Char} (h : ∀ c ∈ ds, c.isDigit = true) (n : Nat) :
    digitsValue 10 (ds ++ List.replicate n '0') = digitsValue 10 ds * 10 ^ n := by
  rw [digitsValue_eq (List.forall_mem_append.2 ⟨h, isDigit_of_mem_zeros⟩), digitsValue_eq h,
    Nat.ofDigitChars_append, Nat.ofDigitChars_replicate_zero, Nat.mul_comm]

theorem digitsValue_zeros_append {ds : List Char} (h : ∀ c ∈ ds, c.isDigit = true) (n : Nat) :
    digitsValue 10 (List.replicate n '0' ++ ds) = digitsValue 10 ds := by
  rw [digitsValue_eq (List.forall_mem_append.2 ⟨isDigit_of_mem_zeros, h⟩), digitsValue_eq h,
    Nat.ofDigitChars_append, Nat.ofDigitChars_replicate_zero, Nat.mul_zero]

/-! ## Reading -/

namespace Numeral

/-- A fraction with its point; nothing is written for no digits. -/
def fractionText (ds : List Char) : List Char :=
  match ds with
  | [] => []
  | rest => '.' :: rest

theorem fractionText_of_ne_nil {ds : List Char} (h : ds ≠ []) : fractionText ds = '.' :: ds := by
  obtain ⟨d, ds, rfl⟩ := List.exists_cons_of_ne_nil h
  rfl

theorem mem_fractionText {c : Char} {ds : List Char} (h : c ∈ fractionText ds) :
    c = '.' ∨ c ∈ ds := by
  unfold fractionText at h
  split at h
  · cases h
  · exact List.mem_cons.1 h

theorem head?_of_readExponent? {cs : List Char} {e : Int} (h : readExponent? cs = some e) :
    ∀ c ∈ cs.head?, c = 'e' ∨ c = 'E' := by
  unfold readExponent? at h
  split at h
  · simp
  · simp_all

theorem readExponent?_signed (e : Int) :
    readExponent? ('e' :: (if e < 0 then '-' else '+') :: Nat.toDigits 10 e.natAbs) = some e := by
  have hall : (Nat.toDigits 10 e.natAbs).all Char.isDigit = true :=
    List.all_eq_true.2 isDigit_of_mem_toDigits
  obtain h | h := lt_or_ge e 0
  · simp [readExponent?, hall, h, digitsValue_toDigits, Nat.toDigits_ne_nil, abs_of_neg]
  · simpa [readExponent?, hall, not_lt.2 h, digitsValue_toDigits, Nat.toDigits_ne_nil] using h

/-- A numeral is read as the parts that it is written from. -/
theorem read?_append {ds fs rest : List Char} {e : Int} (hds : ∀ c ∈ ds, c.isDigit = true)
    (hne : ds ≠ []) (hfs : ∀ c ∈ fs, c.isDigit = true) (hrest : readExponent? rest = some e) :
    read? (ds ++ (fractionText fs ++ rest)) = some ⟨false, ds, fs, e⟩ := by
  obtain ⟨d, ds', rfl⟩ := List.exists_cons_of_ne_nil hne
  have hminus : ¬d = '-' := by
    rintro rfl
    exact absurd (hds _ List.mem_cons_self) (by decide)
  have hstop : ∀ c ∈ rest.head?, c.isDigit = false := by
    intro c hc
    obtain rfl | rfl := head?_of_readExponent? hrest c hc <;> rfl
  unfold read?
  split
  rename_i heq
  split at heq
  · exact absurd (List.cons.inj ‹_›).1 hminus
  cases heq
  cases fs with
  | nil =>
    obtain ⟨htake, hdrop⟩ := Text.span_run hds hstop
    simp only [fractionText, List.nil_append, htake, hdrop, List.isEmpty_cons, Bool.false_eq_true,
      if_false]
    split
    · obtain h | h := head?_of_readExponent? hrest '.' rfl <;> exact absurd h (by decide)
    · rw [hrest, Option.map_some]
  | cons f fs =>
    have hpoint : ∀ c ∈ ('.' :: f :: fs ++ rest).head?, c.isDigit = false := by simp
    obtain ⟨htake, hdrop⟩ := Text.span_run hds hpoint
    obtain ⟨htake', hdrop'⟩ := Text.span_run hfs hstop
    simp only [fractionText, htake, hdrop, List.isEmpty_cons, Bool.false_eq_true, if_false]
    rw [List.cons_append]
    simp only [htake', hdrop', hrest, List.isEmpty_cons, Bool.false_eq_true, if_false,
      Option.map_some]

theorem negative_of_read?_minus {cs : List Char} {n : Numeral} (h : read? ('-' :: cs) = some n) :
    n.negative = true := by
  simp only [read?] at h
  split at h
  · cases h
  split at h
  · split at h
    · cases h
    · obtain ⟨e, -, rfl⟩ := Option.map_eq_some_iff.1 h
      rfl
  · obtain ⟨e, -, rfl⟩ := Option.map_eq_some_iff.1 h
    rfl

/-- A text reads back as a number without a sign. -/
def ReadsAs (cs : List Char) (q : ℚ) : Prop :=
  ∃ n, read? cs = some n ∧ n.negative = false ∧ n.size = q

theorem readsAs_append (ds fs rest : List Char) {e x : Int} {c j : Nat}
    (hds : ∀ c ∈ ds, c.isDigit = true) (hne : ds ≠ []) (hfs : ∀ c ∈ fs, c.isDigit = true)
    (hrest : readExponent? rest = some e) (hdigits : digitsValue 10 (ds ++ fs) = c * 10 ^ j)
    (hexponent : e - fs.length + j = x) :
    ReadsAs (ds ++ (fractionText fs ++ rest)) (c * 10 ^ x) := by
  refine ⟨_, read?_append hds hne hfs hrest, rfl, ?_⟩
  rw [size, hdigits, ← hexponent, zpow_add₀ (by norm_num), zpow_natCast]
  push_cast
  ring

/-! ## Plain numerals -/

/-- Reads what stands behind the sign. -/
def readUnsigned? (negative : Bool) (cs : List Char) : Option Numeral :=
  let whole := cs.takeWhile Char.isDigit
  if whole.isEmpty then none
  else
    match cs.dropWhile Char.isDigit with
    | '.' :: rest =>
      let fraction := rest.takeWhile Char.isDigit
      if fraction.isEmpty then none
      else (readExponent? (rest.dropWhile Char.isDigit)).map (⟨negative, whole, fraction, ·⟩)
    | rest => (readExponent? rest).map (⟨negative, whole, [], ·⟩)

theorem read?_minus (cs : List Char) : read? ('-' :: cs) = readUnsigned? true cs := rfl

theorem read?_of_ne {cs : List Char} (h : ∀ rest, cs ≠ '-' :: rest) :
    read? cs = readUnsigned? false cs := by
  unfold read?
  split
  rename_i heq
  split at heq
  · exact absurd rfl (h _)
  · cases heq
    rfl

theorem readUnsigned?_true (cs : List Char) :
    readUnsigned? true cs = (readUnsigned? false cs).map fun n => { n with negative := true } := by
  simp only [readUnsigned?]
  split
  · rfl
  split
  · split
    · rfl
    · rw [Option.map_map]
      rfl
  · rw [Option.map_map]
    rfl

/-- Digits, with a fraction or without one, behind a minus sign or without one. -/
def IsPlain (cs : List Char) : Prop :=
  ∃ (negative : Bool) (ds fs : List Char), ds ≠ [] ∧ (∀ c ∈ ds, c.isDigit = true) ∧
    (∀ c ∈ fs, c.isDigit = true) ∧ cs = (if negative then ['-'] else []) ++ (ds ++ fractionText fs)

theorem read?_plain (negative : Bool) {ds fs : List Char} (hne : ds ≠ [])
    (hds : ∀ c ∈ ds, c.isDigit = true) (hfs : ∀ c ∈ fs, c.isDigit = true) :
    read? ((if negative then ['-'] else []) ++ (ds ++ fractionText fs)) =
      some ⟨negative, ds, fs, 0⟩ := by
  have hread : read? (ds ++ (fractionText fs ++ [])) = some ⟨false, ds, fs, 0⟩ :=
    read?_append hds hne hfs rfl
  rw [List.append_nil] at hread
  cases negative with
  | false => exact hread
  | true =>
    have hunsigned : ∀ rest, ds ++ fractionText fs ≠ '-' :: rest := by
      rintro rest hrest
      obtain ⟨d, ds, rfl⟩ := List.exists_cons_of_ne_nil hne
      have hd := hds d List.mem_cons_self
      rw [(List.cons.inj hrest).1] at hd
      exact absurd hd (by decide)
    rw [read?_of_ne hunsigned] at hread
    rw [if_pos rfl, List.singleton_append, read?_minus, readUnsigned?_true, hread, Option.map_some]

/-- What is read up to its end without an exponent consists of digits. -/
theorem exists_of_readUnsigned? {negative : Bool} {cs : List Char} {n : Numeral}
    (h : readUnsigned? negative cs = some n) (hcs : ∀ c ∈ cs, c ≠ 'e' ∧ c ≠ 'E') :
    ∃ ds fs, ds ≠ [] ∧ (∀ c ∈ ds, c.isDigit = true) ∧ (∀ c ∈ fs, c.isDigit = true) ∧
      cs = ds ++ fractionText fs := by
  have hend {rest : List Char} {e : Int} (hrest : readExponent? rest = some e)
      (hsub : rest ⊆ cs) : rest = [] := by
    refine List.eq_nil_iff_forall_not_mem.2 fun c hc => ?_
    obtain ⟨d, rest, rfl⟩ := List.exists_cons_of_ne_nil (List.ne_nil_of_mem hc)
    have hd := hcs d (hsub List.mem_cons_self)
    obtain h | h := head?_of_readExponent? hrest d rfl
    · exact hd.1 h
    · exact hd.2 h
  have hsplit := List.takeWhile_append_dropWhile (p := Char.isDigit) (l := cs)
  have hdigits (ds : List Char) : ∀ c ∈ ds.takeWhile Char.isDigit, c.isDigit = true :=
    List.all_eq_true.1 List.all_takeWhile
  simp only [readUnsigned?] at h
  split at h
  · cases h
  rename_i hwhole
  rw [List.isEmpty_iff] at hwhole
  split at h
  · rename_i rest hdrop
    split at h
    · cases h
    rename_i hfraction
    rw [List.isEmpty_iff] at hfraction
    obtain ⟨e, he, -⟩ := Option.map_eq_some_iff.1 h
    have hrest : rest.takeWhile Char.isDigit = rest := by
      have hsub : rest.dropWhile Char.isDigit ⊆ cs := by
        rw [← hsplit, hdrop]
        exact ((List.dropWhile_sublist _).trans ((List.sublist_cons_self _ _).trans
          (List.sublist_append_right _ _))).subset
      have := List.takeWhile_append_dropWhile (p := Char.isDigit) (l := rest)
      rwa [hend he hsub, List.append_nil] at this
    rw [hrest] at hfraction
    refine ⟨_, rest, hwhole, hdigits cs, hrest ▸ hdigits rest, ?_⟩
    rw [fractionText_of_ne_nil hfraction, ← hdrop, hsplit]
  · obtain ⟨e, he, -⟩ := Option.map_eq_some_iff.1 h
    refine ⟨_, [], hwhole, hdigits cs, by simp, ?_⟩
    have hrest := hend he (List.dropWhile_sublist _).subset
    rw [hrest, List.append_nil] at hsplit
    exact hsplit.symm.trans (List.append_nil _).symm

/-- The plain numerals are those that are read without an exponent. -/
theorem read?_isSome_iff {cs : List Char} (hcs : ∀ c ∈ cs, c ≠ 'e' ∧ c ≠ 'E') :
    (read? cs).isSome ↔ IsPlain cs := by
  constructor
  · intro h
    obtain ⟨n, hn⟩ := Option.isSome_iff_exists.1 h
    by_cases hsign : ∃ rest, cs = '-' :: rest
    · obtain ⟨rest, rfl⟩ := hsign
      rw [read?_minus] at hn
      obtain ⟨ds, fs, hne, hds, hfs, rfl⟩ :=
        exists_of_readUnsigned? hn fun c hc => hcs c (List.mem_cons_of_mem _ hc)
      exact ⟨true, ds, fs, hne, hds, hfs, rfl⟩
    · rw [not_exists] at hsign
      rw [read?_of_ne hsign] at hn
      obtain ⟨ds, fs, hne, hds, hfs, rfl⟩ := exists_of_readUnsigned? hn hcs
      exact ⟨false, ds, fs, hne, hds, hfs, rfl⟩
  · rintro ⟨negative, ds, fs, hne, hds, hfs, rfl⟩
    rw [read?_plain negative hne hds hfs]
    rfl

end Numeral

namespace Digits

/-- The text of a decimal reads back as its value. -/
theorem readsAs_text (d : Digits) : Numeral.ReadsAs d.text d.value := by
  unfold text value
  extract_lets ds k point e fraction
  have hdigits : ∀ c ∈ ds, c.isDigit = true := isDigit_of_mem_toDigits
  have hvalue : digitsValue 10 ds = d.coefficient := digitsValue_toDigits _
  have hne : ds ≠ [] := Nat.toDigits_ne_nil
  have hpos : 0 < k := List.length_pos_iff.2 hne
  clear_value ds
  split
  -- zeros behind the digits
  · have hzeros : ∀ c ∈ ds ++ List.replicate (point - k).toNat '0', c.isDigit = true :=
      List.forall_mem_append.2 ⟨hdigits, isDigit_of_mem_zeros⟩
    have hread := Numeral.readsAs_append (ds ++ List.replicate (point - k).toNat '0') [] []
      (x := d.exponent) (j := (point - k).toNat) hzeros (List.append_ne_nil_of_left_ne_nil hne _)
      (by simp) rfl (by rw [List.append_nil, digitsValue_append_zeros hdigits, hvalue])
      (by simp only [List.length_nil]; omega)
    simpa only [Numeral.fractionText, List.append_nil] using hread
  split
  -- the point among the digits
  · have hread := Numeral.readsAs_append (ds.take point.toNat) (ds.drop point.toNat) []
      (x := d.exponent) (j := 0) (c := d.coefficient)
      (fun c hc => hdigits c (List.mem_of_mem_take hc)) (by simp [hne]; omega)
      (fun c hc => hdigits c (List.mem_of_mem_drop hc)) rfl
      (by rw [List.take_append_drop, hvalue, Nat.pow_zero, Nat.mul_one])
      (by simp only [List.length_drop]; omega)
    have hdrop : ds.drop point.toNat ≠ [] := by
      rw [Ne, List.drop_eq_nil_iff]
      omega
    rwa [Numeral.fractionText_of_ne_nil hdrop, List.append_nil] at hread
  split
  -- zeros between the point and the digits
  · have hzeros : digitsValue 10 (['0'] ++ (List.replicate point.natAbs '0' ++ ds)) =
        d.coefficient := by
      have := digitsValue_zeros_append hdigits (point.natAbs + 1)
      rwa [hvalue, List.replicate_succ, List.cons_append] at this
    have hread := Numeral.readsAs_append ['0'] (List.replicate point.natAbs '0' ++ ds) []
      (x := d.exponent) (j := 0) (c := d.coefficient) (by simp) (by simp)
      (List.forall_mem_append.2 ⟨isDigit_of_mem_zeros, hdigits⟩) rfl
      (by rw [hzeros, Nat.pow_zero, Nat.mul_one])
      (by simp only [List.length_append, List.length_replicate]; omega)
    have hfraction : List.replicate point.natAbs '0' ++ ds ≠ [] :=
      List.append_ne_nil_of_right_ne_nil _ hne
    rwa [Numeral.fractionText_of_ne_nil hfraction, List.append_nil] at hread
  -- scientific notation
  · have hread := Numeral.readsAs_append (ds.take 1) (ds.drop 1)
      ('e' :: (if e < 0 then '-' else '+') :: Nat.toDigits 10 e.natAbs)
      (x := d.exponent) (j := 0) (c := d.coefficient)
      (fun c hc => hdigits c (List.mem_of_mem_take hc)) (by simp [hne])
      (fun c hc => hdigits c (List.mem_of_mem_drop hc)) (Numeral.readExponent?_signed e)
      (by rw [List.take_append_drop, hvalue, Nat.pow_zero, Nat.mul_one])
      (by simp only [List.length_drop]; omega)
    rwa [← List.append_assoc] at hread

theorem text_ne_nil (d : Digits) : d.text ≠ [] := by
  intro h
  obtain ⟨n, hread, -, -⟩ := d.readsAs_text
  rw [h] at hread
  cases hread

theorem minus_cons_ne_text {cs : List Char} (d : Digits) : '-' :: cs ≠ d.text := by
  intro h
  obtain ⟨n, hread, hsign, -⟩ := d.readsAs_text
  rw [← h] at hread
  exact absurd hsign (by simp [Numeral.negative_of_read?_minus hread])

/-- The characters that a number is written with. -/
def IsWrittenBy (c : Char) : Prop :=
  c.isDigit = true ∨ c ∈ ['-', '+', '.', 'e']

theorem isWrittenBy_of_mem_text {d : Digits} {c : Char} (hc : c ∈ d.text) : IsWrittenBy c := by
  have hdigits (n : Nat) : ∀ c ∈ Nat.toDigits 10 n, IsWrittenBy c :=
    fun c hc => .inl (isDigit_of_mem_toDigits c hc)
  have hzeros (n : Nat) : ∀ c ∈ List.replicate n '0', IsWrittenBy c :=
    fun c hc => .inl (isDigit_of_mem_zeros c hc)
  revert c
  unfold text
  extract_lets ds k point e fraction
  have hds : ∀ c ∈ ds, IsWrittenBy c := hdigits _
  have hpoint : IsWrittenBy '.' := .inr (by decide)
  split
  · exact List.forall_mem_append.2 ⟨hds, hzeros _⟩
  split
  · exact List.forall_mem_append.2 ⟨fun c hc => hds c (List.mem_of_mem_take hc),
      List.forall_mem_cons.2 ⟨hpoint, fun c hc => hds c (List.mem_of_mem_drop hc)⟩⟩
  split
  · exact List.forall_mem_cons.2 ⟨.inl rfl, List.forall_mem_cons.2 ⟨hpoint,
      List.forall_mem_append.2 ⟨hzeros _, hds⟩⟩⟩
  · have hfraction : ∀ c ∈ fraction, IsWrittenBy c := by
      intro c hc
      obtain rfl | hc := Numeral.mem_fractionText hc
      · exact hpoint
      · exact hds c (List.mem_of_mem_drop hc)
    have hexponent : ∀ c ∈ 'e' :: (if e < 0 then '-' else '+') :: Nat.toDigits 10 e.natAbs,
        IsWrittenBy c := by
      refine List.forall_mem_cons.2 ⟨.inr (by decide), List.forall_mem_cons.2 ⟨.inr ?_, hdigits _⟩⟩
      split <;> decide
    exact List.forall_mem_append.2 ⟨List.forall_mem_append.2
      ⟨fun c hc => hds c (List.mem_of_mem_take hc), hfraction⟩, hexponent⟩

end Digits

/-! ## Numbers -/

namespace Magnitude

/-- The text of a magnitude tells it. -/
theorem text_shortest_inj {m n : Magnitude} : m.shortest.text = n.shortest.text ↔ m = n := by
  refine ⟨fun h => eq_of_value_shortest ?_, fun h => h ▸ rfl⟩
  obtain ⟨k, hk, -, hvalue⟩ := m.shortest.readsAs_text
  obtain ⟨l, hl, -, hvalue'⟩ := n.shortest.readsAs_text
  rw [h, hl] at hk
  rw [← hvalue, ← hvalue', Option.some.inj hk]

end Magnitude

namespace Binary64

/-- A number that is written with a minus sign. -/
def hasSign : Binary64 → Bool
  | finite s m => s && m.significand != 0
  | _ => false

theorem toList_text {s : Bool} {m : Magnitude} :
    (finite s m).text.toList =
      (if (finite s m).hasSign then ['-'] else []) ++ m.shortest.text := by
  unfold text hasSign
  by_cases h : m.significand = 0
  · have hzero : m.shortest.text = ['0'] := by
      rw [Magnitude.eq_zero_of_significand h, Magnitude.shortest_zero]
      rfl
    simp [h, hzero]
  · cases s <;> simp [h]

theorem signedUnits_eq {s : Bool} {m : Magnitude} :
    (finite s m).signedUnits = if (finite s m).hasSign then -(m.units : Int) else m.units := by
  by_cases h : m.significand = 0
  · have hunits : m.units = 0 := by rw [Magnitude.units, h, Nat.zero_shiftLeft]
    cases s <;> simp [signedUnits, hasSign, h, hunits]
  · cases s <;> simp [signedUnits, hasSign, h]

theorem units_pos_of_hasSign {s : Bool} {m : Magnitude} (h : (finite s m).hasSign = true) :
    0 < m.units := by
  rw [hasSign, Bool.and_eq_true, bne_iff_ne] at h
  rw [Magnitude.units, Nat.shiftLeft_eq]
  exact Nat.mul_pos (Nat.pos_of_ne_zero h.2) (Nat.two_pow_pos _)

/-- Two finite numbers have one text exactly when they are equal, zeros of both signs being one
number. -/
theorem text_eq_iff {s t : Bool} {m n : Magnitude} :
    (finite s m).text = (finite t n).text ↔
      (finite s m).signedUnits = (finite t n).signedUnits := by
  have hunits : m.units = n.units ↔ m = n := ⟨Magnitude.eq_of_units_eq, fun h => h ▸ rfl⟩
  rw [← String.toList_inj, toList_text, toList_text, signedUnits_eq, signedUnits_eq]
  cases hs : (finite s m).hasSign <;> cases ht : (finite t n).hasSign
  · simp [Magnitude.text_shortest_inj, hunits]
  · have hpos := units_pos_of_hasSign ht
    have htext : m.shortest.text ≠ '-' :: n.shortest.text := (m.shortest.minus_cons_ne_text).symm
    simp [htext]
    omega
  · have hpos := units_pos_of_hasSign hs
    simp [n.shortest.minus_cons_ne_text]
    omega
  · simp [Magnitude.text_shortest_inj, hunits]

theorem isWrittenBy_of_mem_text {s : Bool} {m : Magnitude} {c : Char}
    (h : c ∈ (finite s m).text.toList) : Digits.IsWrittenBy c := by
  rw [toList_text, List.mem_append] at h
  obtain h | h := h
  · split at h
    · rw [List.mem_singleton.1 h]
      exact .inr (by decide)
    · cases h
  · exact Digits.isWrittenBy_of_mem_text h

theorem text_finite_ne_nil {s : Bool} {m : Magnitude} : (finite s m).text.toList ≠ [] := by
  rw [toList_text]
  exact List.append_ne_nil_of_right_ne_nil _ m.shortest.text_ne_nil

end Binary64

end Metamodel.Decimal
