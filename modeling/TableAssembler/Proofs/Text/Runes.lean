/-
**Texts, rune by rune.**

The runes of a text are read by ranges of bytes.  Here it is shown that this reading undoes the
encoding of characters: where the bytes of a character stand, that character is read, and where no
character's bytes stand, a single stray byte is.  A text can therefore be taken apart rune by rune
(`Text.rune_induction`).  ASCII continues no character, so that the runes of a text end wherever an
ASCII byte follows (`Text.runes_append`); a scanner that stops only at such places counts the same
runes as a reader of the whole.

Main definitions:

* `Rune.bytes` — the bytes of a rune;
* `Text.Broken` — a text at whose start no character stands;
* `Text.StartsPlain`, `Text.EndsPlain` — a text that starts, or ends, with ASCII.

Main results:

* `Text.take_firstRune`, `Text.firstRune_ofChar` — reading and encoding are inverse;
* `Text.rune_induction` — **induction on a text by its runes**;
* `Text.runes_append`, `Text.runes_append_of_endsPlain` — where ASCII follows, and behind ASCII, the
  runes of a text end.
-/

import Mathlib.Data.List.Infix
import Mathlib.Tactic.SplitIfs
import TableAssembler.Text.Basic

set_option relaxedAutoImplicit false
set_option autoImplicit false

namespace TableAssembler

/-- The bytes of a rune. -/
def Rune.bytes : Rune → Text
  | .scalar c => Text.ofChar c
  | .stray b => [b]

namespace Text

/-! ### Classes of bytes -/

theorem leadLength_cases (b : UInt8) :
    (leadLength b = 1 ∧ b.toNat < 0x80) ∨
      (leadLength b = 2 ∧ 0xC2 ≤ b.toNat ∧ b.toNat ≤ 0xDF) ∨
      (leadLength b = 3 ∧ 0xE0 ≤ b.toNat ∧ b.toNat ≤ 0xEF) ∨
      (leadLength b = 4 ∧ 0xF0 ≤ b.toNat ∧ b.toNat ≤ 0xF4) ∨
      (leadLength b = 0 ∧ 0x80 ≤ b.toNat ∧ (b.toNat < 0xC2 ∨ 0xF4 < b.toNat)) := by
  simp only [leadLength, UInt8.lt_iff_toNat_lt, UInt8.le_iff_toNat_le, UInt8.reduceToNat]
  split_ifs <;> simp <;> omega

theorem isTail_iff {c : UInt8} : isTail c = true ↔ 0x80 ≤ c.toNat ∧ c.toNat ≤ 0xBF := by
  simp [isTail, UInt8.le_iff_toNat_le]

theorem isSecond_iff {b c : UInt8} :
    isSecond b c = true ↔ 0x80 ≤ c.toNat ∧ c.toNat ≤ 0xBF ∧ (b.toNat = 0xE0 → 0xA0 ≤ c.toNat) ∧
      (b.toNat = 0xED → c.toNat ≤ 0x9F) ∧ (b.toNat = 0xF0 → 0x90 ≤ c.toNat) ∧
        (b.toNat = 0xF4 → c.toNat ≤ 0x8F) := by
  simp only [isSecond, isTail, UInt8.le_iff_toNat_le, ← UInt8.toNat_inj, UInt8.reduceToNat]
  split_ifs <;> simp <;> omega

/-! ### Encoding what has been read -/

theorem toNat_char {v : Nat} (h : v < 0xD800 ∨ (0xDFFF < v ∧ v < 0x110000)) :
    (Char.ofNat v).val.toNat = v := by
  have hv : v.isValidChar := h
  rw [Char.ofNat, dif_pos hv]
  rfl

theorem ofNat_eq {b : UInt8} {v : Nat} (h : v = b.toNat) : UInt8.ofNat v = b := by
  subst h
  exact UInt8.ofNat_toNat

theorem ofChar_one {b : UInt8} (hb : b.toNat < 0x80) : ofChar (Char.ofNat b.toNat) = [b] := by
  rw [ofChar, String.utf8EncodeChar, toNat_char (by omega), if_pos (by omega), UInt8.ofNat_toNat]

theorem ofChar_two {b c : UInt8} (hb : 0xC2 ≤ b.toNat ∧ b.toNat ≤ 0xDF)
    (hc : isSecond b c = true) :
    ofChar (Char.ofNat (b.toNat % 32 * 64 + tailBits c)) = [b, c] := by
  have hc := isSecond_iff.1 hc
  rw [tailBits]
  generalize hv : b.toNat % 32 * 64 + c.toNat % 64 = v
  rw [ofChar, String.utf8EncodeChar, toNat_char (by omega), if_neg (by omega), if_pos (by omega),
    ofNat_eq (b := b) (by omega), ofNat_eq (b := c) (by omega)]

theorem ofChar_three {b c d : UInt8} (hb : 0xE0 ≤ b.toNat ∧ b.toNat ≤ 0xEF)
    (hc : isSecond b c = true) (hd : isTail d = true) :
    ofChar (Char.ofNat ((b.toNat % 16 * 64 + tailBits c) * 64 + tailBits d)) = [b, c, d] := by
  have hc := isSecond_iff.1 hc
  have hd := isTail_iff.1 hd
  rw [tailBits, tailBits]
  generalize hv : (b.toNat % 16 * 64 + c.toNat % 64) * 64 + d.toNat % 64 = v
  rw [ofChar, String.utf8EncodeChar, toNat_char (by omega), if_neg (by omega), if_neg (by omega),
    if_pos (by omega), ofNat_eq (b := b) (by omega), ofNat_eq (b := c) (by omega),
    ofNat_eq (b := d) (by omega)]

theorem ofChar_four {b c d e : UInt8} (hb : 0xF0 ≤ b.toNat ∧ b.toNat ≤ 0xF4)
    (hc : isSecond b c = true) (hd : isTail d = true) (he : isTail e = true) :
    ofChar (Char.ofNat (((b.toNat % 8 * 64 + tailBits c) * 64 + tailBits d) * 64 + tailBits e)) =
      [b, c, d, e] := by
  have hc := isSecond_iff.1 hc
  have hd := isTail_iff.1 hd
  have he := isTail_iff.1 he
  rw [tailBits, tailBits, tailBits]
  generalize hv :
    ((b.toNat % 8 * 64 + c.toNat % 64) * 64 + d.toNat % 64) * 64 + e.toNat % 64 = v
  rw [ofChar, String.utf8EncodeChar, toNat_char (by omega), if_neg (by omega), if_neg (by omega),
    if_neg (by omega), ofNat_eq (b := b) (by omega), ofNat_eq (b := c) (by omega),
    ofNat_eq (b := d) (by omega), ofNat_eq (b := e) (by omega)]

/-- **A rune takes exactly its bytes.** -/
theorem take_firstRune (b : UInt8) (rest : Text) :
    (b :: rest).take (firstRune b rest).2 = (firstRune b rest).1.bytes := by
  have hlead := leadLength_cases b
  unfold firstRune
  split
  next hone =>
    rw [hone] at hlead
    simp [Rune.bytes, ofChar_one (by omega : b.toNat < 0x80)]
  next c more htwo =>
    rw [htwo] at hlead
    split
    next h => simp [Rune.bytes, ofChar_two (by omega) h]
    next => simp [Rune.bytes]
  next c d more hthree =>
    rw [hthree] at hlead
    split
    next h =>
      rw [Bool.and_eq_true] at h
      simp [Rune.bytes, ofChar_three (by omega) h.1 h.2]
    next => simp [Rune.bytes]
  next c d e more hfour =>
    rw [hfour] at hlead
    split
    next h =>
      rw [Bool.and_eq_true, Bool.and_eq_true] at h
      simp [Rune.bytes, ofChar_four (by omega) h.1.1 h.1.2 h.2]
    next => simp [Rune.bytes]
  next => simp [Rune.bytes]

/-! ### Reading what has been encoded -/

theorem ofChar_ne_nil (c : Char) : ofChar c ≠ [] := by
  rw [ofChar, String.utf8EncodeChar]
  split_ifs <;> simp

/-- All bytes of a character but its first lie beyond ASCII. -/
theorem le_of_mem_tail_ofChar {c : Char} {x : UInt8} (h : x ∈ (ofChar c).tail) :
    0x80 ≤ x.toNat := by
  rw [ofChar, String.utf8EncodeChar] at h
  split_ifs at h
  all_goals simp only [List.tail_cons, List.mem_cons, List.not_mem_nil, or_false] at h
  · rw [h, UInt8.toNat_ofNat']
    omega
  · rcases h with rfl | rfl <;> rw [UInt8.toNat_ofNat'] <;> omega
  · rcases h with rfl | rfl | rfl <;> rw [UInt8.toNat_ofNat'] <;> omega

theorem toNat_ofNat {v : Nat} (h : v < 0x100) : (UInt8.ofNat v).toNat = v := by
  rw [UInt8.toNat_ofNat']
  omega

/-- **Where the bytes of a character stand, that character is read.** -/
theorem firstRune_ofChar {c : Char} {b : UInt8} {rest more : Text}
    (h : b :: rest = ofChar c ++ more) : firstRune b rest = (.scalar c, (ofChar c).length) := by
  have hread : ∀ v : Nat, v = c.val.toNat → Char.ofNat v = c := by
    rintro v rfl
    exact Char.ofNat_toNat c
  have hvalid : c.val.toNat < 0xD800 ∨ (0xDFFF < c.val.toNat ∧ c.val.toNat < 0x110000) := c.valid
  have hlead := leadLength_cases b
  rw [ofChar, String.utf8EncodeChar] at h ⊢
  generalize c.val.toNat = v at *
  -- one case for each number of bytes
  split_ifs at h ⊢
  · obtain ⟨rfl, rfl⟩ := List.cons.inj h
    have hb : (UInt8.ofNat v).toNat = v := toNat_ofNat (by omega)
    have hone : leadLength (UInt8.ofNat v) = 1 := by omega
    simp only [firstRune, hone, hb]
    rw [hread v rfl]
    rfl
  · simp only [List.cons_append, List.nil_append, List.cons.injEq] at h
    obtain ⟨rfl, rfl⟩ := h
    have hb := @toNat_ofNat (v / 64 % 32 + 192) (by omega)
    have hc := @toNat_ofNat (v % 64 + 128) (by omega)
    have htwo : leadLength (UInt8.ofNat (v / 64 % 32 + 192)) = 2 := by omega
    clear hlead
    simp only [firstRune, htwo, tailBits]
    rw [if_pos (isSecond_iff.2 (by omega)), hb, hc, hread _ (by omega)]
    rfl
  · simp only [List.cons_append, List.nil_append, List.cons.injEq] at h
    obtain ⟨rfl, rfl⟩ := h
    have hb := @toNat_ofNat (v / 4096 % 16 + 224) (by omega)
    have hc := @toNat_ofNat (v / 64 % 64 + 128) (by omega)
    have hd := @toNat_ofNat (v % 64 + 128) (by omega)
    have hthree : leadLength (UInt8.ofNat (v / 4096 % 16 + 224)) = 3 := by omega
    clear hlead
    simp only [firstRune, hthree, tailBits]
    rw [isSecond_iff.2 (by omega), isTail_iff.2 (by omega), hb, hc, hd, hread _ (by omega)]
    rfl
  · simp only [List.cons_append, List.nil_append, List.cons.injEq] at h
    obtain ⟨rfl, rfl⟩ := h
    have hb := @toNat_ofNat (v / 262144 % 8 + 240) (by omega)
    have hc := @toNat_ofNat (v / 4096 % 64 + 128) (by omega)
    have hd := @toNat_ofNat (v / 64 % 64 + 128) (by omega)
    have he := @toNat_ofNat (v % 64 + 128) (by omega)
    have hfour : leadLength (UInt8.ofNat (v / 262144 % 8 + 240)) = 4 := by omega
    clear hlead
    simp only [firstRune, hfour, tailBits]
    rw [isSecond_iff.2 (by omega), isTail_iff.2 (by omega), isTail_iff.2 (by omega), hb, hc, hd,
      he, hread _ (by omega)]
    rfl

/-! ### Induction by runes -/

/-- No character stands at the start of a text. -/
def Broken (t : Text) : Prop := ∀ c : Char, ¬ofChar c <+: t

/-- **The first rune of a text** is the character whose bytes stand there, or else a stray byte. -/
theorem firstRune_cases (b : UInt8) (rest : Text) :
    (∃ c more, b :: rest = ofChar c ++ more) ∨
      (firstRune b rest = (.stray b, 1) ∧ Broken (b :: rest)) := by
  have htake := take_firstRune b rest
  have hle := firstRune_length_le b rest
  cases hrune : (firstRune b rest).1 with
  | scalar c =>
      rw [hrune, Rune.bytes] at htake
      refine .inl ⟨c, (b :: rest).drop (firstRune b rest).2, ?_⟩
      rw [← htake, List.take_append_drop]
  | stray d =>
      rw [hrune, Rune.bytes] at htake
      have hone : (firstRune b rest).2 = 1 := by
        have hlength := congrArg List.length htake
        rw [List.length_take, List.length_singleton] at hlength
        omega
      rw [hone] at htake
      obtain rfl : b = d := by simpa using htake
      refine .inr ⟨Prod.ext hrune hone, ?_⟩
      rintro c ⟨more, hmore⟩
      rw [firstRune_ofChar hmore.symm] at hrune
      cases hrune

/-- The runes of a text that starts with a character. -/
theorem runes_ofChar (c : Char) (more : Text) :
    runes (ofChar c ++ more) = .scalar c :: runes more := by
  obtain ⟨b, tail, hc⟩ := List.exists_cons_of_ne_nil (ofChar_ne_nil c)
  have hfirst : firstRune b (tail ++ more) = (.scalar c, (ofChar c).length) :=
    firstRune_ofChar (by rw [hc, List.cons_append])
  rw [hc, List.cons_append, runes_cons, hfirst, hc]
  simp

/-- The runes of a text that starts with no character. -/
theorem runes_broken {b : UInt8} {rest : Text} (h : Broken (b :: rest)) :
    runes (b :: rest) = .stray b :: runes rest := by
  rcases firstRune_cases b rest with ⟨c, more, hc⟩ | ⟨hfirst, -⟩
  · exact absurd ⟨more, hc.symm⟩ (h c)
  · rw [runes_cons, hfirst]
    rfl

theorem runeCount_ofChar (c : Char) (more : Text) :
    runeCount (ofChar c ++ more) = runeCount more + 1 := by
  rw [runeCount, runes_ofChar, List.length_cons, runeCount]

theorem runeCount_broken {b : UInt8} {rest : Text} (h : Broken (b :: rest)) :
    runeCount (b :: rest) = runeCount rest + 1 := by
  rw [runeCount, runes_broken h, List.length_cons, runeCount]

/-- **Induction on a text by its runes**: characters, and bytes that belong to none. -/
@[elab_as_elim]
theorem rune_induction {motive : Text → Prop} (t : Text) (nil : motive [])
    (scalar : ∀ c more, motive more → motive (ofChar c ++ more))
    (stray : ∀ b rest, Broken (b :: rest) → motive rest → motive (b :: rest)) : motive t := by
  induction hlength : t.length using Nat.strong_induction_on generalizing t with
  | _ n ih =>
      cases t with
      | nil => exact nil
      | cons b rest =>
          rcases firstRune_cases b rest with ⟨c, more, hc⟩ | ⟨-, hbroken⟩
          · have hpos := List.length_pos_iff.2 (ofChar_ne_nil c)
            have hsum := congrArg List.length hc
            rw [List.length_append] at hsum
            rw [hc]
            exact scalar c more (ih more.length (by omega) more rfl)
          · refine stray b rest hbroken (ih rest.length ?_ rest rfl)
            rw [List.length_cons] at hlength
            omega

/-! ### Seams -/

/-- A text starts with ASCII, unless it is empty. -/
def StartsPlain (t : Text) : Prop := ∀ c ∈ t.head?, c.toNat < 0x80

/-- ASCII continues no character. -/
theorem Broken.append {b : UInt8} {rest more : Text} (h : Broken (b :: rest))
    (hmore : StartsPlain more) : Broken (b :: (rest ++ more)) := by
  intro c hc
  rcases List.prefix_or_prefix_of_prefix hc (List.prefix_append (b :: rest) more) with hle | hlt
  · exact h c hle
  · obtain ⟨tail, htail⟩ := hlt
    rw [← htail, ← List.cons_append, List.prefix_append_right_inj] at hc
    cases tail with
    | nil => exact h c ⟨[], by simp [← htail]⟩
    | cons x tail =>
        -- the character would go on with `x`, which is ASCII
        obtain ⟨after, rfl⟩ := hc
        have hplain := hmore x rfl
        have hbeyond := le_of_mem_tail_ofChar (c := c) (x := x) (by simp [← htail])
        omega

/-- **Where ASCII follows, the runes of a text end.** -/
theorem runes_append (t : Text) {more : Text} (hmore : StartsPlain more) :
    runes (t ++ more) = runes t ++ runes more := by
  induction t using rune_induction with
  | nil => rfl
  | scalar c rest ih => rw [List.append_assoc, runes_ofChar, runes_ofChar, ih, List.cons_append]
  | stray b rest h ih =>
      rw [runes_broken h, List.cons_append, runes_broken (h.append hmore), ih, List.cons_append]

/-- A text ends with ASCII, unless it is empty. -/
def EndsPlain (t : Text) : Prop := ∀ c ∈ t.getLast?, c.toNat < 0x80

theorem EndsPlain.of_append {first second : Text} (h : EndsPlain (first ++ second)) :
    EndsPlain second := by
  intro c hc
  refine h c ?_
  rw [List.getLast?_append, Option.mem_def.1 hc]
  rfl

/-- ASCII is continued by no character. -/
theorem Broken.append_of_endsPlain {b : UInt8} {rest : Text} (h : Broken (b :: rest))
    (hends : EndsPlain (b :: rest)) (more : Text) : Broken (b :: (rest ++ more)) := by
  intro c hc
  rcases List.prefix_or_prefix_of_prefix hc (List.prefix_append (b :: rest) more) with hle | hlt
  · exact h c hle
  · -- the character reaches to the last byte of the text, and is more than that byte
    obtain ⟨tail, htail⟩ := hlt
    rcases List.eq_nil_or_concat rest with rfl | ⟨front, last, rfl⟩
    · have hplain := hends b rfl
      exact h (Char.ofNat b.toNat) ⟨[], by rw [List.append_nil, ofChar_one hplain]⟩
    · rw [List.concat_eq_append] at hends htail
      have hplain := hends last (by rw [← List.cons_append, List.getLast?_concat]; rfl)
      have hbeyond := le_of_mem_tail_ofChar (c := c) (x := last) (by simp [← htail])
      omega

/-- **Where a text ends with ASCII, its runes end.** -/
theorem runes_append_of_endsPlain {t : Text} (h : EndsPlain t) (more : Text) :
    runes (t ++ more) = runes t ++ runes more := by
  induction t using rune_induction with
  | nil => rfl
  | scalar c rest ih =>
      rw [List.append_assoc, runes_ofChar, runes_ofChar, ih h.of_append, List.cons_append]
  | stray b rest hbroken ih =>
      have hrest : EndsPlain rest := @EndsPlain.of_append [b] rest h
      rw [runes_broken hbroken, List.cons_append,
        runes_broken (hbroken.append_of_endsPlain h more), ih hrest, List.cons_append]

theorem runeCount_append (t : Text) {more : Text} (hmore : StartsPlain more) :
    runeCount (t ++ more) = runeCount t + runeCount more := by
  rw [runeCount, runes_append t hmore, List.length_append]
  rfl

end Text

end TableAssembler
