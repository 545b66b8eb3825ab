/-
**What the numbers of a source are worth.**

A number token is a digit and any letters, digits and underscores behind it.  What it is worth is
decided by what is left of it without the mark of its base and without underscores.  Read from left
to right, this goes wrong in one of two ways: the digits read so far reach two to the sixty-fourth,
or a character is no digit of the base.  Which of the two is reported depends on which comes first,
and so a number can be out of range although it is no literal of its base at all: such a number
passes for well-formed, and gets past the parser.

A text is taken apart behind its longest beginning of digits (`Numbers.exists_front`); the reading
of that beginning is known, and the character behind it ends the reading.

Main definitions:

* `Numbers.InDigits` — characters that stand for digits of a base, one for one;
* `Numbers.digitText` — the characters that decide what a number token is worth;
* `Numbers.Worth`, `Numbers.Exceeds` — **the value of a text in a base**, and texts that exceed the
  range;
* `Numbers.readWords` — the reading in words of sixty-four bits;
* `Numbers.Flawed` — a number that is no literal of its base.

Main results:

* `Numbers.readDigits_cases` — the three outcomes of a reading;
* `Numbers.readWords_eq` — words of sixty-four bits suffice;
* `Numbers.value_exact` — **number tokens have their exact value**;
* `Numbers.malformed_unless_exceeding` — **which numbers are malformed**, and what a number that
  gets past the parser looks like;
* `Numbers.oversized_gets_past` — a number that is no literal gets past the parser.
-/

import TableAssembler.Proofs.Statement.Printing
import TableAssembler.Proofs.Token.Literal

set_option relaxedAutoImplicit false
set_option autoImplicit false

namespace TableAssembler

namespace Numbers

open Grammar Lexer Literal TableAssembler.Parser Printing
open Text (byte utf8)

/-! ### Characters and digits -/

/-- A character is a digit of a base. -/
def IsDigitOf (base : Nat) (c : UInt8) : Prop := ∃ d < base, StandsFor c d

/-- **Characters stand for digits of a base**, one for one. -/
def InDigits (base : Nat) (t : Text) (digits : List Nat) : Prop :=
  List.Forall₂ (fun c d => StandsFor c d ∧ d < base) t digits

/-- The value of a digit is what its character stands for. -/
theorem standsFor_of_digitValue? {c : UInt8} {d : Nat} (h : digitValue? c = some d)
    (hd : d < 16) : StandsFor c d := by
  have hall : ∀ n : Fin 256, ∀ d ∈ digitValue? (UInt8.ofNat n), d < 16 →
      StandsFor (UInt8.ofNat n) d := by
    decide +kernel
  have hc := hall ⟨c.toNat, c.toNat_lt⟩ d
  rw [UInt8.ofNat_toNat] at hc
  exact hc h hd

namespace InDigits

variable {base : Nat} {t : Text} {digits : List Nat}

theorem writes (h : InDigits base t digits) : Digits base t digits := by
  induction h with
  | nil => exact .nil
  | cons hc _ ih => exact .digit hc.1 hc.2 ih

theorem filter_eq (h : InDigits base t digits) : t.filter (· != byte '_') = t := by
  induction h with
  | nil => rfl
  | cons hc _ ih =>
      rw [List.filter_cons_of_pos (by simpa using (isNamePart_of_standsFor hc.1).2), ih]

theorem isDigitOf (h : InDigits base t digits) : ∀ c ∈ t, IsDigitOf base c := by
  induction h with
  | nil => simp
  | cons hc _ ih => exact List.forall_mem_cons.2 ⟨⟨_, hc.2, hc.1⟩, ih⟩

end InDigits

/-- A text of digits with underscores among them. -/
theorem digits_of_filter {base : Nat} {t : Text} {digits : List Nat}
    (h : InDigits base (t.filter (· != byte '_')) digits) : Digits base t digits := by
  induction t generalizing digits with
  | nil =>
      cases h
      exact .nil
  | cons c t ih =>
      by_cases hc : c = byte '_'
      · subst hc
        exact .underscore (ih h)
      · rw [List.filter_cons_of_pos (by simpa using hc)] at h
        cases h with
        | cons hdigit hrest => exact .digit hdigit.1 hdigit.2 (ih hrest)

/-- **A text starts with digits**, and behind them comes no further digit. -/
theorem exists_front (base : Nat) (t : Text) :
    ∃ front digits back, t = front ++ back ∧ InDigits base front digits ∧
      ∀ c ∈ back.head?, ¬IsDigitOf base c := by
  induction t with
  | nil => exact ⟨[], [], [], rfl, .nil, by simp⟩
  | cons c t ih =>
      by_cases hc : IsDigitOf base c
      · obtain ⟨d, hd, hstands⟩ := hc
        obtain ⟨front, digits, back, rfl, hfront, hback⟩ := ih
        exact ⟨c :: front, d :: digits, back, rfl, .cons ⟨hstands, hd⟩ hfront, hback⟩
      · exact ⟨[], [], c :: t, rfl, .nil, by simpa using hc⟩

/-! ### The reading -/

/-- **What a text is worth in a base**: the number that its digits make, below two to the
sixty-fourth. -/
def Worth (base : Nat) (t : Text) (value : Nat) : Prop :=
  t ≠ [] ∧ ∃ digits, InDigits base t digits ∧ value = numberOf base digits ∧ value < valueBound

/-- **A text exceeds the range** already with the digits that it starts with. -/
def Exceeds (base : Nat) (t : Text) : Prop :=
  ∃ front digits, front <+: t ∧ InDigits base front digits ∧ valueBound ≤ numberOf base digits

/-- The reading of the digits that a text starts with. -/
theorem readDigits_front {base : Nat} {front : Text} {digits : List Nat}
    (h : InDigits base front digits) (back : Text) :
    readDigits base 0 (front ++ back) =
      if numberOf base digits < valueBound then readDigits base (numberOf base digits) back
      else .error .outOfRange := by
  have hread := @readDigits_append base front digits h.writes 0 (by decide) back
  rwa [h.filter_eq, horner_zero] at hread

/-- A character that is no digit ends the reading. -/
theorem readDigits_of_not_digit {base : Nat} (hbase : base ≤ 16) {c : UInt8}
    (h : ¬IsDigitOf base c) (read : Nat) (more : Text) :
    readDigits base read (c :: more) = .error .malformed := by
  rw [readDigits]
  cases hdigit : digitValue? c with
  | none => rfl
  | some d =>
      have hle : base ≤ d := by
        by_contra hlt
        exact h ⟨d, by omega, standsFor_of_digitValue? hdigit (by omega)⟩
      simp only [if_pos hle]

theorem readDigits_of_inDigits {base : Nat} {t : Text} {digits : List Nat}
    (h : InDigits base t digits) (hlt : numberOf base digits < valueBound) :
    readDigits base 0 t = .ok (numberOf base digits) := by
  have hread := readDigits_front h []
  rwa [List.append_nil, if_pos hlt] at hread

theorem readDigits_of_exceeds {base : Nat} {t : Text} (h : Exceeds base t) :
    readDigits base 0 t = .error .outOfRange := by
  obtain ⟨front, digits, ⟨back, rfl⟩, hfront, hle⟩ := h
  rw [readDigits_front hfront, if_neg (Nat.not_lt.2 hle)]

/-- **The three outcomes of a reading**: a number, a number out of range, or a character that is no
digit, behind digits that are not yet out of range. -/
theorem readDigits_cases {base : Nat} (hbase : base ≤ 16) (t : Text) :
    (∃ digits, InDigits base t digits ∧ numberOf base digits < valueBound ∧
        readDigits base 0 t = .ok (numberOf base digits)) ∨
      (Exceeds base t ∧ readDigits base 0 t = .error .outOfRange) ∨
        ((∃ c ∈ t, ¬IsDigitOf base c) ∧ readDigits base 0 t = .error .malformed) := by
  obtain ⟨front, digits, back, rfl, hfront, hback⟩ := exists_front base t
  by_cases hlt : numberOf base digits < valueBound
  · cases back with
    | nil =>
        rw [List.append_nil]
        exact .inl ⟨digits, hfront, hlt, readDigits_of_inDigits hfront hlt⟩
    | cons c more =>
        have hc := hback c rfl
        refine .inr (.inr ⟨⟨c, by simp, hc⟩, ?_⟩)
        rw [readDigits_front hfront, if_pos hlt, readDigits_of_not_digit hbase hc]
  · have hexceeds : Exceeds base (front ++ back) :=
      ⟨front, digits, List.prefix_append front back, hfront, Nat.not_lt.1 hlt⟩
    exact .inr (.inl ⟨hexceeds, readDigits_of_exceeds hexceeds⟩)

/-! ### Words of sixty-four bits -/

/-- The first number that gets out of range when it is multiplied by a base. -/
def cutoff (base : UInt64) : UInt64 := 0xFFFFFFFFFFFFFFFF / base + 1

/-- **The reading in words**: a number too large to be multiplied is found before, and a sum that
does not fit shows by being smaller than what was added to. -/
def readWords (base read : UInt64) : Text → Except NumberFault UInt64
  | [] => .ok read
  | c :: rest =>
      match digitValue? c with
      | none => .error .malformed
      | some d =>
          if base.toNat ≤ d then .error .malformed
          else if cutoff base ≤ read then .error .outOfRange
          else if read * base + UInt64.ofNat d < read * base then .error .outOfRange
          else readWords base (read * base + UInt64.ofNat d) rest

theorem cutoff_le_iff {base : UInt64} (hbase : 2 ≤ base.toNat) (read : UInt64) :
    cutoff base ≤ read ↔ valueBound ≤ read.toNat * base.toNat := by
  have hquotient : 0xFFFFFFFFFFFFFFFF / base.toNat ≤ 0xFFFFFFFFFFFFFFFF / 2 :=
    Nat.div_le_div_left hbase (by decide)
  have hcutoff : (cutoff base).toNat = 0xFFFFFFFFFFFFFFFF / base.toNat + 1 := by
    rw [cutoff, UInt64.toNat_add, UInt64.toNat_div]
    exact Nat.mod_eq_of_lt (by simp only [UInt64.reduceToNat]; omega)
  rw [UInt64.le_iff_toNat_le, hcutoff, Nat.succ_le_iff, Nat.div_lt_iff_lt_mul (by omega)]
  exact Nat.lt_iff_add_one_le

/-- A sum of words is smaller than what was added to exactly if it does not fit. -/
theorem add_lt_iff (a b : UInt64) : a + b < a ↔ valueBound ≤ a.toNat + b.toNat := by
  have ha := a.toNat_lt
  have hb := b.toNat_lt
  rw [UInt64.lt_iff_toNat_lt, UInt64.toNat_add, valueBound]
  omega

/-- **Words suffice**: what the reading finds with unbounded numbers it finds with words. -/
theorem readWords_eq {base : UInt64} (hbase : 2 ≤ base.toNat) (read : UInt64) (t : Text) :
    (readWords base read t).map UInt64.toNat = readDigits base.toNat read.toNat t := by
  induction t generalizing read with
  | nil => rfl
  | cons c rest ih =>
      rw [readWords, readDigits]
      cases digitValue? c with
      | none => rfl
      | some d =>
          dsimp only
          by_cases hd : base.toNat ≤ d
          · rw [if_pos hd, if_pos hd]
            rfl
          rw [if_neg hd, if_neg hd]
          by_cases hcutoff : cutoff base ≤ read
          · have hle := (cutoff_le_iff hbase read).1 hcutoff
            rw [if_pos hcutoff, if_neg (by omega)]
            rfl
          have hproduct : (read * base).toNat = read.toNat * base.toNat := by
            have hlt := Nat.not_le.1 (mt (cutoff_le_iff hbase read).2 hcutoff)
            rw [UInt64.toNat_mul]
            exact Nat.mod_eq_of_lt hlt
          have hdigit : (UInt64.ofNat d).toNat = d := by
            have hlt := base.toNat_lt
            rw [UInt64.toNat_ofNat', Nat.mod_eq_of_lt (by omega)]
          have hwraps := add_lt_iff (read * base) (UInt64.ofNat d)
          rw [hproduct, hdigit] at hwraps
          rw [if_neg hcutoff]
          by_cases hfits : read.toNat * base.toNat + d < valueBound
          · have hsum : (read * base + UInt64.ofNat d).toNat = read.toNat * base.toNat + d := by
              rw [UInt64.toNat_add, hproduct, hdigit]
              exact Nat.mod_eq_of_lt hfits
            rw [if_neg (mt hwraps.1 (Nat.not_le.2 hfits)), if_pos hfits, ih, hsum]
          · rw [if_pos (hwraps.2 (Nat.not_lt.1 hfits)), if_neg hfits]
            rfl

/-! ### Number tokens -/

/-- What stands behind the mark of a number token; a number in base ten has no mark. -/
def behindMark (token : Token) : Text :=
  if token.base = 10 then token.text else token.text.drop 2

/-- The characters that decide what a number token is worth: those behind its mark, without
underscores. -/
def digitText (token : Token) : Text := (behindMark token).filter (· != byte '_')

/-- The base of a literal is ten, or it comes with a mark of two characters. -/
theorem numberBase_cases (text : Text) :
    numberBase text = 10 ∨
      (numberBase text = 16 ∨ numberBase text = 2 ∨ numberBase text = 8) ∧ 2 ≤ text.length := by
  unfold numberBase
  split
  next zero letter rest =>
    split_ifs <;> simp
  next => simp

/-- The base of a number token lies between two and sixteen, and it bears that base itself. -/
theorem base_of_lexical {token : Token} (h : Lexical token) (hkind : token.kind = .number) :
    (2 ≤ token.base ∧ token.base ≤ 16) ∧ token.effectiveBase = token.base ∧
      token.digits = digitText token := by
  have hbase : token.base = numberBase token.text := by rw [h.base, if_pos hkind]
  have hcases := numberBase_cases token.text
  rw [← hbase] at hcases
  have heffective : token.effectiveBase = token.base := if_neg (by omega)
  refine ⟨by omega, heffective, ?_⟩
  rw [Token.digits, heffective, digitText, behindMark]
  by_cases hten : token.base = 10
  · rw [if_neg (by omega), if_pos hten]
  · rw [if_pos (by omega), if_neg hten]

/-- **What a number token is worth is read from its digits.** -/
theorem value_of_lexical {token : Token} (h : Lexical token) (hkind : token.kind = .number) :
    token.value =
      if digitText token = [] then .error ⟨token.text, .malformed⟩
      else (readDigits token.base.toNat 0 (digitText token)).mapError fun fault =>
        ⟨digitText token, fault⟩ := by
  obtain ⟨hbase, heffective, hdigits⟩ := base_of_lexical h hkind
  rw [Token.value, heffective, hdigits]
  by_cases hnil : digitText token = []
  · rw [if_pos (.inr hnil), if_pos hnil]
  · rw [if_neg (by simp [hkind, hnil]), if_neg (by omega), if_neg hnil]

/-- A token has no value, for a given reason. -/
def Fails (token : Token) (fault : NumberFault) : Prop :=
  ∃ digits, token.value = .error ⟨digits, fault⟩

theorem Fails.value_ne {token : Token} {fault : NumberFault} (h : Fails token fault)
    (value : Nat) : token.value ≠ .ok value := by
  obtain ⟨digits, herror⟩ := h
  rw [herror]
  intro hok
  cases hok

/-- There is one reason only. -/
theorem Fails.unique {token : Token} {fault fault' : NumberFault} (h : Fails token fault)
    (h' : Fails token fault') : fault = fault' := by
  obtain ⟨digits, herror⟩ := h
  obtain ⟨digits', herror'⟩ := h'
  rw [herror] at herror'
  cases herror'
  rfl

theorem isMalformed_iff_fails {token : Token} (hkind : token.kind = .number) :
    token.isMalformed = true ↔ Fails token .malformed := by
  rw [Token.isMalformed, hkind]
  cases hvalue : token.value with
  | ok value => simp [Fails, hvalue]
  | error error =>
      obtain ⟨digits, fault⟩ := error
      simp [Fails, hvalue]

/-- **A number token is no literal of its base**: nothing is left of it to read, or it has a
character that is no digit. -/
def Flawed (token : Token) : Prop :=
  digitText token = [] ∨ ∃ c ∈ digitText token, ¬IsDigitOf token.base.toNat c

section Lexical

variable {token : Token} (h : Lexical token) (hkind : token.kind = .number)
include h hkind

theorem value_of_worth {value : Nat} (hworth : Worth token.base.toNat (digitText token) value) :
    token.value = .ok value := by
  obtain ⟨hne, digits, hdigits, rfl, hlt⟩ := hworth
  rw [value_of_lexical h hkind, if_neg hne, readDigits_of_inDigits hdigits hlt]
  rfl

theorem fails_of_exceeds (hexceeds : Exceeds token.base.toNat (digitText token)) :
    Fails token .outOfRange := by
  have hread := readDigits_of_exceeds hexceeds
  have hne : digitText token ≠ [] := by
    intro hnil
    rw [hnil] at hread
    cases hread
  refine ⟨digitText token, ?_⟩
  rw [value_of_lexical h hkind, if_neg hne, hread]
  rfl

/-- **The three kinds of number tokens.** -/
theorem value_cases :
    (∃ value, Worth token.base.toNat (digitText token) value ∧ token.value = .ok value) ∨
      (Exceeds token.base.toNat (digitText token) ∧ Fails token .outOfRange) ∨
        (Flawed token ∧ Fails token .malformed) := by
  by_cases hnil : digitText token = []
  · refine .inr (.inr ⟨.inl hnil, token.text, ?_⟩)
    rw [value_of_lexical h hkind, if_pos hnil]
  · have hbase : token.base.toNat ≤ 16 := by
      obtain ⟨hrange, -⟩ := base_of_lexical h hkind
      omega
    rcases readDigits_cases hbase (digitText token) with
      ⟨digits, hdigits, hlt, -⟩ | ⟨hexceeds, -⟩ | ⟨hflaw, hread⟩
    · have hworth : Worth token.base.toNat (digitText token) (numberOf token.base.toNat digits) :=
        ⟨hnil, digits, hdigits, rfl, hlt⟩
      exact .inl ⟨_, hworth, value_of_worth h hkind hworth⟩
    · exact .inr (.inl ⟨hexceeds, fails_of_exceeds h hkind hexceeds⟩)
    · refine .inr (.inr ⟨.inr hflaw, digitText token, ?_⟩)
      rw [value_of_lexical h hkind, if_neg hnil, hread]
      rfl

theorem value_eq_ok_iff (value : Nat) :
    token.value = .ok value ↔ Worth token.base.toNat (digitText token) value := by
  refine ⟨fun hvalue => ?_, value_of_worth h hkind⟩
  rcases value_cases h hkind with ⟨value', hworth, hvalue'⟩ | ⟨-, hfails⟩ | ⟨-, hfails⟩
  · obtain rfl := Except.ok.inj (hvalue.symm.trans hvalue')
    exact hworth
  · exact absurd hvalue (hfails.value_ne value)
  · exact absurd hvalue (hfails.value_ne value)

theorem fails_outOfRange_iff :
    Fails token .outOfRange ↔ Exceeds token.base.toNat (digitText token) := by
  refine ⟨fun hout => ?_, fails_of_exceeds h hkind⟩
  rcases value_cases h hkind with ⟨value, -, hvalue⟩ | ⟨hexceeds, -⟩ | ⟨-, hfails⟩
  · exact absurd hvalue (hout.value_ne value)
  · exact hexceeds
  · cases hout.unique hfails

/-- A number token is malformed where it has neither a value nor too large a one. -/
theorem fails_malformed_iff :
    Fails token .malformed ↔ (∀ value, ¬Worth token.base.toNat (digitText token) value) ∧
      ¬Exceeds token.base.toNat (digitText token) := by
  constructor
  · intro hfails
    refine ⟨fun value hworth => hfails.value_ne value (value_of_worth h hkind hworth), ?_⟩
    intro hexceeds
    cases hfails.unique (fails_of_exceeds h hkind hexceeds)
  · rintro ⟨hworthless, hexceeds⟩
    rcases value_cases h hkind with ⟨value, hworth, -⟩ | ⟨hexceeds', -⟩ | ⟨-, hfails⟩
    · exact absurd hworth (hworthless value)
    · exact absurd hexceeds' hexceeds
    · exact hfails

/-- What is worth a number is no flawed literal, and a literal without a flaw is worth a number
unless it exceeds the range. -/
theorem flawed_iff (hexceeds : ¬Exceeds token.base.toNat (digitText token)) :
    Flawed token ↔ ∀ value, ¬Worth token.base.toNat (digitText token) value := by
  constructor
  · rintro hflawed value ⟨hne, digits, hdigits, -⟩
    rcases hflawed with hnil | ⟨c, hc, hdigit⟩
    · exact hne hnil
    · exact hdigit (hdigits.isDigitOf c hc)
  · intro hworthless
    rcases value_cases h hkind with ⟨value, hworth, -⟩ | ⟨hexceeds', -⟩ | ⟨hflawed, -⟩
    · exact absurd hworth (hworthless value)
    · exact absurd hexceeds' hexceeds
    · exact hflawed

end Lexical

/-! ### The numbers of a source -/

theorem lexical_of_mem_tokenize {source : Text} {token : Token} (h : .ok token ∈ tokenize source)
    (hkind : token.kind = .number) : Lexical token :=
  lexical_of_mem_scan h (by simp [hkind])

/-- **Number tokens have their exact value.**  Let the digits of a number token be what is left of
it without the mark of its base and without underscores.  It has a value exactly if there are
digits, they are digits of its base, and the number that they make stays below two to the
sixty-fourth; the value is that number.  It is out of range exactly if digits of the base that it
starts with make two to the sixty-fourth already, whatever follows them.  In all other cases it is
malformed.  To find this out takes words of sixty-four bits only. -/
theorem value_exact (source : Text) (token : Token) (hmem : .ok token ∈ tokenize source)
    (hkind : token.kind = .number) :
    (∀ value, token.value = .ok value ↔ Worth token.base.toNat (digitText token) value) ∧
      (Fails token .outOfRange ↔ Exceeds token.base.toNat (digitText token)) ∧
        (Fails token .malformed ↔
          ¬(∃ value, Worth token.base.toNat (digitText token) value) ∧
            ¬Exceeds token.base.toNat (digitText token)) ∧
          (digitText token ≠ [] → token.value =
            ((readWords token.base.toNat.toUInt64 0 (digitText token)).map UInt64.toNat).mapError
              fun fault => ⟨digitText token, fault⟩) := by
  have h := lexical_of_mem_tokenize hmem hkind
  refine ⟨value_eq_ok_iff h hkind, fails_outOfRange_iff h hkind, ?_, fun hne => ?_⟩
  · rw [not_exists]
    exact fails_malformed_iff h hkind
  · obtain ⟨hbase, -⟩ := base_of_lexical h hkind
    have hword : token.base.toNat.toUInt64.toNat = token.base.toNat :=
      Nat.mod_eq_of_lt (by omega)
    rw [readWords_eq (by omega), hword, value_of_lexical h hkind, if_neg hne]
    rfl

/-- The greatest number below two to the sixty-fourth, and a number that gets beyond it before a
letter comes that is no digit. -/
def brink : Text := utf8 "OP 0xFFFF_ffff_FFFF_ffff, 99999999999999999999z"

theorem brink_exact :
    (.ok ⟨.number, utf8 "0xFFFF_ffff_FFFF_ffff", ⟨3, 24, 1, 4⟩, 16⟩ ∈ tokenize brink ∧
      Token.value ⟨.number, utf8 "0xFFFF_ffff_FFFF_ffff", ⟨3, 24, 1, 4⟩, 16⟩ =
        .ok 0xFFFFFFFFFFFFFFFF ∧ Worth 16 (utf8 "FFFFffffFFFFffff") 0xFFFFFFFFFFFFFFFF) ∧
      (.ok ⟨.number, utf8 "99999999999999999999z", ⟨26, 47, 1, 27⟩, 10⟩ ∈ tokenize brink ∧
        Fails ⟨.number, utf8 "99999999999999999999z", ⟨26, 47, 1, 27⟩, 10⟩ .outOfRange ∧
          Exceeds 10 (utf8 "99999999999999999999z")) := by
  have hgreatest : .ok ⟨.number, utf8 "0xFFFF_ffff_FFFF_ffff", ⟨3, 24, 1, 4⟩, 16⟩ ∈
      tokenize brink := by
    decide +kernel
  have hbeyond : .ok ⟨.number, utf8 "99999999999999999999z", ⟨26, 47, 1, 27⟩, 10⟩ ∈
      tokenize brink := by
    decide +kernel
  have hvalue : Token.value ⟨.number, utf8 "0xFFFF_ffff_FFFF_ffff", ⟨3, 24, 1, 4⟩, 16⟩ =
      .ok 0xFFFFFFFFFFFFFFFF := by
    decide +kernel
  have hfails : Token.value ⟨.number, utf8 "99999999999999999999z", ⟨26, 47, 1, 27⟩, 10⟩ =
      .error ⟨utf8 "99999999999999999999z", .outOfRange⟩ := by
    decide +kernel
  have hworth := ((value_exact brink _ hgreatest rfl).1 0xFFFFFFFFFFFFFFFF).1 hvalue
  have hexceeds := (value_exact brink _ hbeyond rfl).2.1.1 ⟨_, hfails⟩
  exact ⟨⟨hgreatest, hvalue, hworth⟩, hbeyond, ⟨_, hfails⟩, hexceeds⟩

/-- **Which numbers are malformed.**  A number token of a source is malformed exactly if it is no
literal of its base and does not start with digits that exceed the range already.  Unless it does,
a number that is an operand of a statement therefore has, behind its mark, nothing but digits of its
base, at least one, and underscores. -/
theorem malformed_unless_exceeding (source : Text) :
    (∀ token, .ok token ∈ tokenize source → token.kind = .number →
      (token.isMalformed = true ↔
        Flawed token ∧ ¬Exceeds token.base.toNat (digitText token))) ∧
      ∀ parsed, statements source = .ok parsed → ∀ statement ∈ parsed,
        ∀ operand ∈ statement.operands, operand.kind = .number →
          ¬Exceeds operand.base.toNat (digitText operand) →
            ∃ digits, digits ≠ [] ∧ Digits operand.base.toNat (behindMark operand) digits := by
  constructor
  · intro token hmem hkind
    have h := lexical_of_mem_tokenize hmem hkind
    rw [isMalformed_iff_fails hkind, fails_malformed_iff h hkind, and_congr_left_iff]
    exact fun hexceeds => (flawed_iff h hkind hexceeds).symm
  · intro parsed hparsed statement hstatement operand hoperand hkind hexceeds
    obtain ⟨phrases, rfl, hlexical⟩ := exists_phrases hparsed
    obtain ⟨phrase, hphrase, rfl⟩ := List.mem_map.1 hstatement
    have htoken : operand ∈ phrase.tokens := by
      have hsub := phrase.operands_sublist.subset hoperand
      simp [Phrase.tokens, hsub]
    have h := hlexical phrase hphrase operand htoken
    have hformed : ¬Fails operand .malformed := by
      rcases Phrase.isOperand_of_mem hoperand with hidentifier | ⟨-, hnot⟩
      · rw [hkind] at hidentifier
        cases hidentifier
      · rw [← isMalformed_iff_fails hkind, hnot]
        exact Bool.false_ne_true
    rcases value_cases h hkind with
      ⟨value, ⟨hne, digits, hdigits, -⟩, -⟩ | ⟨hexceeds', -⟩ | ⟨-, hfails⟩
    · refine ⟨digits, ?_, digits_of_filter hdigits⟩
      rintro rfl
      exact hne (List.forall₂_nil_right_iff.1 hdigits)
    · exact absurd hexceeds' hexceeds
    · exact absurd hfails hformed

/-- A mark without digits. -/
def bareMark : Token := ⟨.number, utf8 "0x_", ⟨0, 3, 1, 1⟩, 16⟩

/-- A number of two digits with an underscore between them, and its statement. -/
def underscored : Token := ⟨.number, utf8 "0x1_F", ⟨3, 8, 1, 4⟩, 16⟩

theorem bareMark_malformed :
    (.ok bareMark ∈ tokenize (utf8 "0x_") ∧ bareMark.isMalformed = true ∧ Flawed bareMark ∧
        ¬Exceeds bareMark.base.toNat (digitText bareMark)) ∧
      (statements (utf8 "OP 0x1_F") = .ok [⟨[], utf8 "OP", ⟨0, 2, 1, 1⟩, false, [underscored],
          ⟨0, 8, 1, 1⟩⟩] ∧ ¬Exceeds underscored.base.toNat (digitText underscored) ∧
        ∃ digits, digits ≠ [] ∧ Digits underscored.base.toNat (behindMark underscored) digits) := by
  have hmem : .ok bareMark ∈ tokenize (utf8 "0x_") := by decide +kernel
  have hmalformed : bareMark.isMalformed = true := by decide +kernel
  have hflawed := ((malformed_unless_exceeding _).1 bareMark hmem rfl).1 hmalformed
  have hparsed : statements (utf8 "OP 0x1_F") = .ok [⟨[], utf8 "OP", ⟨0, 2, 1, 1⟩, false,
      [underscored], ⟨0, 8, 1, 1⟩⟩] := by
    decide +kernel
  have hexceeds : ¬Exceeds underscored.base.toNat (digitText underscored) := by
    intro h
    have hread := readDigits_of_exceeds h
    revert hread
    decide +kernel
  have hdigits := (malformed_unless_exceeding _).2 _ hparsed _ List.mem_cons_self underscored
    List.mem_cons_self rfl hexceeds
  exact ⟨⟨hmem, hmalformed, hflawed⟩, hparsed, hexceeds, hdigits⟩

/-- A number that is no literal of base ten, but out of range before its last letter comes. -/
def oversized : Token := ⟨.number, utf8 "99999999999999999999x", ⟨4, 25, 1, 5⟩, 10⟩

/-- **A number that is no literal gets past the parser**: its last character is no digit of base
ten, but it does not count as malformed, and becomes an operand. -/
theorem oversized_gets_past :
    .ok oversized ∈ tokenize (utf8 "NOP 99999999999999999999x") ∧ Flawed oversized ∧
      oversized.isMalformed = false ∧
        statements (utf8 "NOP 99999999999999999999x") =
          .ok [⟨[], utf8 "NOP", ⟨0, 3, 1, 1⟩, false, [oversized], ⟨0, 25, 1, 1⟩⟩] ∧
        byte 'x' ∈ behindMark oversized ∧ byte 'x' ≠ byte '_' ∧ ¬IsDigitOf 10 (byte 'x') := by
  have hdigit : ¬IsDigitOf 10 (byte 'x') := by
    rintro ⟨d, hd, hstands⟩
    have hnone : ∀ d < 10, ¬StandsFor (byte 'x') d := by decide
    exact hnone d hd hstands
  refine ⟨by decide +kernel, .inr ⟨byte 'x', by decide +kernel, hdigit⟩, by decide +kernel,
    by decide +kernel, by decide +kernel, by decide, hdigit⟩

end Numbers

end TableAssembler
