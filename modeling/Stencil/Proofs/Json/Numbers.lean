import Stencil.Json.NumberText
import Stencil.Proofs.Numeral.Digits

/-!
# The text of numbers

A number is an optional minus sign, digits without a needless zero in front, and optionally a
fraction and an exponent. A reader takes as much as still belongs to the number, so it takes a
number as a whole where what follows cannot go on with it.

## Main results

* `IsNumber.skipNumber` — a number is read over as a whole.
* `isNumber_ofInt` — the numeral of an integer is a number.
-/

namespace Stencil.Json

/-- One or more decimal digits. -/
def IsRow (ds : List Char) : Prop := ds ≠ [] ∧ ∀ c ∈ ds, c.isDigit = true

/-- The digits before the point: a zero, or a row of digits that does not start with one. -/
def IsWhole (ds : List Char) : Prop := ds = ['0'] ∨ IsRow ds ∧ ds.head? ≠ some '0'

/-- A point and the digits behind it, or nothing. -/
def IsFraction (cs : List Char) : Prop := cs = [] ∨ ∃ ds, cs = '.' :: ds ∧ IsRow ds

/-- An exponent with its mark, or nothing. -/
def IsExponent (cs : List Char) : Prop :=
  cs = [] ∨ ∃ mark sign ds, cs = mark :: (sign ++ ds) ∧ (mark = 'e' ∨ mark = 'E') ∧
    (sign = [] ∨ sign = ['+'] ∨ sign = ['-']) ∧ IsRow ds

/-- The text of a number. -/
inductive IsNumber : List Char → Prop
  | intro {sign whole fraction exponent : List Char} (isSign : sign = [] ∨ sign = ['-'])
      (isWhole : IsWhole whole) (isFraction : IsFraction fraction)
      (isExponent : IsExponent exponent) :
      IsNumber (sign ++ (whole ++ (fraction ++ exponent)))

/-- No number in front goes on with this text. -/
def EndsNumber (cs : List Char) : Prop :=
  ∀ ch ∈ cs.head?, ch.isDigit = false ∧ ch ≠ '.' ∧ ch ≠ 'e' ∧ ch ≠ 'E'

/-! ## Rows of digits -/

theorem isRow_zero : IsRow ['0'] := ⟨by simp, by simp⟩

theorem IsWhole.isRow {ds : List Char} (h : IsWhole ds) : IsRow ds := by
  rcases h with rfl | ⟨hRow, -⟩
  · exact isRow_zero
  · exact hRow

theorem isRow_toDigits (n : Nat) : IsRow (Nat.toDigits 10 n) :=
  ⟨Nat.toDigits_ne_nil, fun _ => Nat.isDigit_of_mem_toDigits (by decide) (by decide)⟩

/-- The digits of a number other than zero do not start with a zero. -/
theorem head?_toDigits_ne {n : Nat} (h : n ≠ 0) : (Nat.toDigits 10 n).head? ≠ some '0' := by
  have hDigit : ∀ d < 10, d ≠ 0 → [Nat.digitChar d].head? ≠ some '0' := by decide
  induction n using Nat.strongRecOn with
  | ind n ih =>
      by_cases hSmall : n < 10
      · rw [Nat.toDigits_of_lt_base hSmall]
        exact hDigit n hSmall h
      · have hFirst := ih (n / 10) (by omega) (by omega)
        rw [Nat.toDigits_of_base_le (by decide) (Nat.le_of_not_lt hSmall)]
        cases hRow : Nat.toDigits 10 (n / 10) with
        | nil => exact absurd hRow Nat.toDigits_ne_nil
        | cons d ds => rwa [hRow] at hFirst

theorem isWhole_toDigits (n : Nat) : IsWhole (Nat.toDigits 10 n) := by
  by_cases hZero : n = 0
  · rw [hZero]
    exact .inl rfl
  · exact .inr ⟨isRow_toDigits n, head?_toDigits_ne hZero⟩

/-- The numeral of an integer is a number. -/
theorem isNumber_ofInt (n : Int) : IsNumber (Numeral.ofInt n).toList := by
  have hNat : ∀ (sign : List Char) (m : Nat), (sign = [] ∨ sign = ['-']) →
      IsNumber (sign ++ (Numeral.ofNat m).toList) := by
    intro sign m hSign
    have hNumber := IsNumber.intro hSign (isWhole_toDigits m) (.inl rfl) (.inl rfl)
    rwa [List.append_nil, List.append_nil, ← Numeral.toList_ofNat] at hNumber
  cases n with
  | ofNat m => exact hNat [] m (.inl rfl)
  | negSucc m =>
      rw [Numeral.ofInt, String.toList_append]
      exact hNat ['-'] (m + 1) (.inr rfl)

namespace Cursor

variable {c : Cursor} {ds cs : List Char} {atEnd : Cause}

/-! ## Reading the parts -/

/-- A row of digits is read up to what is no digit. -/
theorem digits_of_rest (h : c.rest = ds ++ cs) (hDigits : ∀ c ∈ ds, c.isDigit = true)
    (hEnd : ∀ ch ∈ cs.head?, ch.isDigit = false) : c.digits = ds := by
  have hRest : cs.takeWhile Char.isDigit = [] := by
    cases cs with
    | nil => rfl
    | cons ch cs => exact List.takeWhile_cons_of_neg (by simp [hEnd ch rfl])
  rw [digits, h, List.takeWhile_append_of_pos hDigits, hRest, List.append_nil]

theorem readWhole_of_rest (h : c.rest = ds ++ cs) (hWhole : IsWhole ds)
    (hEnd : ∀ ch ∈ cs.head?, ch.isDigit = false) : readWhole atEnd c = .ok ds := by
  rcases hWhole with rfl | ⟨⟨hNil, hDigits⟩, hZero⟩
  · have hBehind : (c.advance 1).digits = [] :=
      digits_of_rest (by simp [h]) (by simp) hEnd
    simp [readWhole, h, hBehind]
  · have hRow : c.digits = ds := digits_of_rest h hDigits hEnd
    cases ds with
    | nil => exact absurd rfl hNil
    | cons d ds =>
        have hOther : d ≠ '0' := fun hSame => hZero (by rw [hSame]; rfl)
        simp [readWhole, h, hOther, hDigits d List.mem_cons_self, hRow]

theorem readFraction_of_rest (h : c.rest = ds ++ cs) (hRow : IsRow ds)
    (hEnd : ∀ ch ∈ cs.head?, ch.isDigit = false) : readFraction atEnd c = .ok ds := by
  have hDigits : c.digits = ds := digits_of_rest h hRow.2 hEnd
  cases ds with
  | nil => exact absurd rfl hRow.1
  | cons d ds => simp [readFraction, h, hDigits]

/-- Whether the sign of an exponent is read as one does not depend on the digits behind it, none of
which is a sign. -/
theorem readExponent_of_rest {sign : List Char} (h : c.rest = sign ++ (ds ++ cs))
    (hSign : sign = [] ∨ sign = ['+'] ∨ sign = ['-']) (hRow : IsRow ds)
    (hEnd : ∀ ch ∈ cs.head?, ch.isDigit = false) :
    ∃ negative, readExponent atEnd c = .ok ((negative, ds), sign.length + ds.length) := by
  have hDigits : (c.advance sign.length).digits = ds :=
    digits_of_rest (by rw [rest_advance, h, List.drop_left]) hRow.2 hEnd
  obtain ⟨hNil, hRow⟩ := hRow
  cases ds with
  | nil => exact absurd rfl hNil
  | cons d ds =>
      have hDigit := hRow d List.mem_cons_self
      rcases hSign with rfl | rfl | rfl
      · have hPlus : d ≠ '+' := fun hSame => by simp [hSame] at hDigit
        have hMinus : d ≠ '-' := fun hSame => by simp [hSame] at hDigit
        exact ⟨false, by simp_all [readExponent]⟩
      · exact ⟨false, by simp_all [readExponent]⟩
      · exact ⟨true, by simp_all [readExponent]⟩

/-! ## Reading over a number -/

/-- The sign that a number starts with, if any: digits do not start with one. -/
theorem sign_of_rest {sign whole : List Char} (h : c.rest = sign ++ (whole ++ cs))
    (hSign : sign = [] ∨ sign = ['-']) (hWhole : IsRow whole) :
    (if (c.rest.head? == some '-') = true then 1 else 0) = sign.length := by
  rcases hSign with rfl | rfl
  · cases whole with
    | nil => exact absurd rfl hWhole.1
    | cons d ds =>
        have hOther : d ≠ '-' := fun hSame => by simpa [hSame] using hWhole.2 d List.mem_cons_self
        simp [h, hOther]
  · simp [h]

private theorem ok_bind {α β : Type} (a : α) (f : α → Except Fault β) :
    (Except.ok a).bind f = f a := rfl

/-- What is read once the digits and the fraction have been: an exponent if there is one. -/
private theorem exponent_of_rest {m : Nat} {exponent : List Char}
    (h : (c.advance m).rest = exponent ++ cs) (hExponent : IsExponent exponent)
    (hEnd : EndsNumber cs) (negative : Bool) (whole fraction : List Char) :
    ∃ t, (if (c.advance m).rest.head? = some 'e' ∨ (c.advance m).rest.head? = some 'E' then
        (readExponent atEnd (c.advance (m + 1))).bind fun r =>
          .ok (NumberText.mk negative whole fraction (some r.1), m + 1 + r.2)
      else .ok (NumberText.mk negative whole fraction none, m)) =
        Except.ok (t, m + exponent.length) := by
  rcases hExponent with rfl | ⟨mark, sign, ds, rfl, hMark, hSign, hRow⟩
  · rw [List.nil_append] at h
    rw [if_neg]
    · exact ⟨_, rfl⟩
    · rw [h]
      rintro (hMark | hMark)
      · exact (hEnd _ hMark).2.2.1 rfl
      · exact (hEnd _ hMark).2.2.2 rfl
  · have hBehind : (c.advance (m + 1)).rest = sign ++ (ds ++ cs) := by
      rw [← advance_advance, rest_advance, h]
      simp
    obtain ⟨negative, hRead⟩ : ∃ negative, readExponent atEnd (c.advance (m + 1)) =
        .ok ((negative, ds), sign.length + ds.length) :=
      readExponent_of_rest hBehind hSign hRow fun ch hMem => (hEnd ch hMem).1
    rw [if_pos (by rw [h]; exact hMark.imp (congrArg some) (congrArg some)), hRead]
    refine ⟨_, congrArg Except.ok (Prod.ext rfl ?_)⟩
    simp only [List.length_cons, List.length_append]
    omega

/-- The parts of a number are read one after the other. -/
theorem readNumberText_of_rest {sign whole fraction exponent : List Char}
    (h : c.rest = sign ++ (whole ++ (fraction ++ (exponent ++ cs))))
    (hSign : sign = [] ∨ sign = ['-']) (hWhole : IsWhole whole) (hFraction : IsFraction fraction)
    (hExponent : IsExponent exponent) (hEnd : EndsNumber cs) :
    ∃ t, readNumberText atEnd c =
      .ok (t, sign.length + whole.length + fraction.length + exponent.length) := by
  -- Neither the exponent nor what follows it goes on with the digits in front, nor is it a point.
  have hNoPoint : ∀ ch ∈ (exponent ++ cs).head?, ch.isDigit = false ∧ ch ≠ '.' := by
    intro ch hMem
    rcases hExponent with rfl | ⟨mark, _, _, rfl, hMark, -⟩
    · exact ⟨(hEnd ch hMem).1, (hEnd ch hMem).2.1⟩
    · obtain rfl : mark = ch := Option.some.inj hMem
      rcases hMark with rfl | rfl <;> decide
  have hNoDigit : ∀ ch ∈ (fraction ++ (exponent ++ cs)).head?, ch.isDigit = false := by
    intro ch hMem
    rcases hFraction with rfl | ⟨_, rfl, -⟩
    · exact (hNoPoint ch hMem).1
    · obtain rfl : '.' = ch := Option.some.inj hMem
      rfl
  have hReadWhole : readWhole atEnd (c.advance sign.length) = .ok whole :=
    readWhole_of_rest (by rw [rest_advance, h, List.drop_left]) hWhole hNoDigit
  have hBehindWhole : (c.advance (sign.length + whole.length)).rest =
      fraction ++ (exponent ++ cs) := by
    rw [← advance_advance, rest_advance, rest_advance, h, List.drop_left, List.drop_left]
  have hBehind : (c.advance (sign.length + whole.length + fraction.length)).rest =
      exponent ++ cs := by
    rw [← advance_advance, rest_advance, hBehindWhole, List.drop_left]
  unfold readNumberText
  dsimp only
  rw [sign_of_rest h hSign hWhole.isRow, hReadWhole]
  simp only [bind, pure, Except.pure, ok_bind]
  rcases hFraction with rfl | ⟨ds, rfl, hRow⟩
  · rw [if_neg (by rw [hBehindWhole]; exact fun hPoint => (hNoPoint _ hPoint).2 rfl)]
    simp only [if_true]
    exact exponent_of_rest hBehind hExponent hEnd (c.rest.head? == some '-') whole []
  · have hReadFraction : readFraction atEnd (c.advance (sign.length + whole.length + 1)) =
        .ok ds := by
      refine readFraction_of_rest ?_ hRow fun ch hMem => (hNoPoint ch hMem).1
      rw [← advance_advance, rest_advance, hBehindWhole]
      rfl
    rw [if_pos (by rw [hBehindWhole]; rfl), hReadFraction, ok_bind]
    simp only [if_neg hRow.1]
    have hLength : sign.length + whole.length + 1 + ds.length =
        sign.length + whole.length + ('.' :: ds).length := by
      rw [List.length_cons]
      omega
    rw [hLength]
    exact exponent_of_rest hBehind hExponent hEnd (c.rest.head? == some '-') whole ds

end Cursor

/-- **A number is read over** as a whole, where what follows does not go on with it. -/
theorem IsNumber.skipNumber {c : Cursor} {text cs : List Char} (hNumber : IsNumber text)
    (h : c.rest = text ++ cs) (hEnd : EndsNumber cs) : c.skipNumber = .ok text.length := by
  cases hNumber with
  | @intro sign whole fraction exponent hSign hWhole hFraction hExponent =>
      have hRest : c.rest = sign ++ (whole ++ (fraction ++ (exponent ++ cs))) := by
        rw [h]
        simp only [List.append_assoc]
      obtain ⟨t, hRead⟩ : ∃ t, Cursor.readNumberText .badNumber c =
          .ok (t, sign.length + whole.length + fraction.length + exponent.length) :=
        Cursor.readNumberText_of_rest hRest hSign hWhole hFraction hExponent hEnd
      rw [Cursor.skipNumber, hRead]
      refine congrArg Except.ok ?_
      simp only [List.length_append]
      omega

/-- A number starts with a minus sign or a digit. -/
theorem IsNumber.exists_cons {text : List Char} (h : IsNumber text) :
    ∃ ch rest, text = ch :: rest ∧ (ch = '-' ∨ ch.isDigit = true) := by
  cases h with
  | @intro sign whole fraction exponent hSign hWhole =>
      rcases hSign with rfl | rfl
      · obtain ⟨hNil, hDigits⟩ := hWhole.isRow
        obtain ⟨d, ds, rfl⟩ := List.exists_cons_of_ne_nil hNil
        exact ⟨d, _, rfl, .inr (hDigits d List.mem_cons_self)⟩
      · exact ⟨'-', _, rfl, .inl rfl⟩

end Stencil.Json
